import DestinX.Vm.UserStacks

/-!
# Kernel virtual areas

`vmalloc` and `vfree` of `mm/vmalloc.c`. The list is the mirror image of the lists of user areas:
`base` is the lower end of an area, and the list runs upwards. As long as no area wraps around,
the list stays in order and the areas apart; so does the list of user stacks. Live results are the
bases of the areas on the list, one for each.
-/

namespace DestinX.Vm

open Base Fs Paging Function List Option Prod Nat

def vmallocStart : Nat := 0xFFFFC00000000000

/-- The upper end of an area that begins at `base`, as the code computes it. -/
def VmArea.upper (a : VmArea) : Nat := add64 a.base a.size

/-- The `while` loop of `vm_add_to_list`. -/
def vmFindGap (s : AreaList) (size : Nat) : Nat → Nat → Option Nat → Option (Nat × Option Nat)
  | 0, _, _ => none
  | _ + 1, current, none => some (current, none)
  | fuel + 1, current, some next =>
    if add64 (s.area current).upper size ≤ (s.area next).base then some (current, some next)
    else vmFindGap s size fuel next (s.next next)

/-- `vm_add_to_list` -/
def vmAddToList (fuel : Nat) (s : AreaList) (i : Nat) : Option AreaList :=
  match s.head with
  | none =>
    some { s.assign i fun a => { a with base := vmallocStart, prev := none, next := none } with
      head := some i }
  | some h =>
    (vmFindGap s (s.area i).size fuel h (s.next h)).map fun gap =>
      placeBetween s i gap.1 gap.2 (s.area gap.1).upper

/-- `vm_remove_from_list` is the same code as for the other lists. -/
def vmRemoveFromList (s : AreaList) (i : Nat) : AreaList := removeFromList s i

/-- The memory of the kernel with `vmalloc_list_head` and the areas behind it. -/
structure KernelAreas where
  kernel : Kernel
  vmallocs : AreaList

/-- The loop of `vmalloc`: one page for each step, the last one for the rest of `size`. -/
def mapPages (k : Kernel) (cr3 base size : Nat) : Kernel :=
  (loopOffsets size).foldl
    (fun k j => k.allocPage.2.mapPage cr3 k.allocPage.1 (add64 base j) pteWritable) k

/-- `vmalloc` in the address space `cr3`, with the block that `kmalloc` returns. -/
def KernelAreas.vmalloc (st : KernelAreas) (fuel cr3 size : Nat) (block : Option (Nat × VmArea)) :
    Option (KernelAreas × Option Nat) :=
  if size = 0 then some (st, none)
  else
    match block with
    | none => some (st, none)
    | some (i, garbage) =>
      (vmAddToList fuel (st.vmallocs.assign i fun _ => { garbage with size := roundUp size }) i).map
        fun s => (⟨mapPages st.kernel cr3 (s.area i).base size, s⟩, some (s.area i).base)

/-- `vfree` -/
def KernelAreas.vfree (st : KernelAreas) (fuel cr3 ptr : Nat) : Option KernelAreas :=
  (searchArea st.vmallocs (fun a => a.base = ptr) fuel st.vmallocs.head).map fun found =>
    match found with
    | some i =>
      ⟨(loopOffsets (st.vmallocs.area i).size).foldl
          (fun k j => k.unmapFree cr3 (add64 (st.vmallocs.area i).base j)) st.kernel,
        vmRemoveFromList st.vmallocs i⟩
    | none => st

/-! ## Runs -/

/-- The areas, with the size that was requested for each live result of `vmalloc`. -/
structure VmallocState where
  areas : KernelAreas
  live : Nat → Option Nat

inductive VmallocAction where
  | vmalloc (cr3 size : Nat) (block : Option (Nat × VmArea)) (ret : Option Nat)
  | vfree (cr3 ptr : Nat)

/-- The block for a new area is none that is on the list. -/
inductive VmallocStep : VmallocState → VmallocAction → VmallocState → Prop
  | vmalloc {st : VmallocState} {areas : KernelAreas} {fuel cr3 size i ptr : Nat} {garbage : VmArea}
      (hfresh : Fresh st.areas.vmallocs (some (i, garbage)))
      (hcall : st.areas.vmalloc fuel cr3 size (some (i, garbage)) = some (areas, some ptr)) :
      VmallocStep st (.vmalloc cr3 size (some (i, garbage)) (some ptr))
        ⟨areas, update st.live ptr (some size)⟩
  | fails {st : VmallocState} {areas : KernelAreas} {fuel cr3 size : Nat}
      {block : Option (Nat × VmArea)}
      (hcall : st.areas.vmalloc fuel cr3 size block = some (areas, none)) :
      VmallocStep st (.vmalloc cr3 size block none) ⟨areas, st.live⟩
  | vfree {st : VmallocState} {areas : KernelAreas} {fuel cr3 ptr : Nat}
      (hcall : st.areas.vfree fuel cr3 ptr = some areas) :
      VmallocStep st (.vfree cr3 ptr) ⟨areas, update st.live ptr none⟩

def vmallocMachine : Machine VmallocState VmallocAction where
  start st := st.areas.vmallocs.head = none ∧ ∀ ptr, st.live ptr = none
  step := VmallocStep

/-- The size in whole pages, without wrap-around. -/
def wholePages (size : Nat) : Nat := (size + 4095) / 4096 * 4096

/-- No address of the new area wraps around. -/
def NoWrap : VmallocAction → Prop
  | .vmalloc _ size _ (some ptr) => ptr + wholePages size < 2 ^ 64
  | _ => True

/-- The areas on the list are `l`, from the bottom upwards, and do not overlap. -/
structure Ascending (start : Nat) (s : AreaList) (l : List Nat) : Prop where
  links : DList s.next s.prev s.head l
  placed : ∀ p ∈ l, start ≤ (s.area p).base ∧ 0 < (s.area p).size ∧
    (s.area p).base + (s.area p).size < 2 ^ 64
  above : l.Pairwise fun p q => (s.area p).base + (s.area p).size ≤ (s.area q).base

/-- Areas of the list with the same base are the same. -/
def OneBase (s : AreaList) (l : List Nat) : Prop :=
  ∀ i ∈ l, ∀ j ∈ l, (s.area i).base = (s.area j).base → i = j

/-- The live results are the bases of the areas `l`, one for each area, and `round` gives the size
of an area from what was requested. -/
structure LiveAreas (round : Nat → Nat) (s : AreaList) (l : List Nat) (live : Nat → Option Nat) :
    Prop where
  area : ∀ b n, live b = some n → ∃ i ∈ l, (s.area i).range = (b, round n)
  live : ∀ i ∈ l, ∃ n, live (s.area i).base = some n
  once : OneBase s l

/-- `vfree` of the base of the area `i` of the list `l` returns and takes exactly this area from the
list. -/
def FreesArea (areas : KernelAreas) (l : List Nat) (i : Nat) : Prop :=
  (∀ cr3, ∃ fuel areas', areas.vfree fuel cr3 (areas.vmallocs.area i).base = some areas') ∧
    ∀ fuel cr3 areas', areas.vfree fuel cr3 (areas.vmallocs.area i).base = some areas' →
      Ascending vmallocStart areas'.vmallocs (l.erase i) ∧
      ∀ j, (areas'.vmallocs.area j).unlinked = (areas.vmallocs.area j).unlinked

/-- The list is in order, its areas are those of the live results in whole pages, and `vfree` takes
exactly the area of a result. A further `vmalloc` returns, and its result was not live. -/
structure VmallocSound (st : VmallocState) : Prop where
  list : ∃ l, Ascending vmallocStart st.areas.vmallocs l ∧
    LiveAreas wholePages st.areas.vmallocs l st.live ∧ ∀ i ∈ l, FreesArea st.areas l i
  returns : ∀ cr3 size block, Fresh st.areas.vmallocs block →
    ∃ fuel r, st.areas.vmalloc fuel cr3 size block = some r
  fresh : ∀ cr3 size block ptr st', VmallocStep st (.vmalloc cr3 size block (some ptr)) st' →
    ptr + wholePages size < 2 ^ 64 → st.live ptr = none

variable {s s' : AreaList} {st st' : VmallocState} {act : VmallocAction}
  {areas areas' : KernelAreas}
  {garbage : VmArea} {block : Option (Nat × VmArea)} {l l₁ l₂ : List Nat}
  {start n b fuel c i p q cr3 size ptr : Nat} {next : Option Nat} {live : Nat → Option Nat}
  {round : Nat → Nat}

/-! ## Lists in ascending order -/

lemma ascending_iff : Ascending start s l ↔ Ordered
    (fun a => start ≤ a.1 ∧ 0 < a.2 ∧ a.1 + a.2 < 2 ^ 64) (fun a b => a.1 + a.2 ≤ b.1) s l :=
  ⟨fun h => ⟨h.links, h.placed, h.above⟩, fun h => ⟨h.links, h.each, h.pairs⟩⟩

lemma Ascending.congr (h : Ascending start s l) (hhead : s'.head = s.head)
    (harea : ∀ p ∈ l, s'.area p = s.area p) : Ascending start s' l :=
  ascending_iff.mpr ((ascending_iff.mp h).congr hhead harea)

lemma Ascending.remove (h : Ascending start s (l₁ ++ i :: l₂)) :
    Ascending start (removeFromList s i) (l₁ ++ l₂) :=
  ascending_iff.mpr (ascending_iff.mp h).remove

lemma Ordered.base_injective {P : Nat × Nat → Prop} {R : Nat × Nat → Nat × Nat → Prop}
    (h : Ordered P R s l) (hne : ∀ a b, P a → P b → R a b → a.1 ≠ b.1) : OneBase s l := by
  have hpairs : l.Pairwise fun i j => (s.area i).base ≠ (s.area j).base :=
    h.pairs.imp_of_mem fun hi hj hij => hne _ _ (h.each _ hi) (h.each _ hj) hij
  exact fun i hi j hj heq => inj_on_of_nodup_map (pairwise_map.mpr hpairs) hi hj heq

lemma Ascending.base_injective (h : Ascending start s l) : OneBase s l :=
  (ascending_iff.mp h).base_injective fun a b ha hb hab => by omega

lemma Sorted.base_injective (h : Sorted start s l) : OneBase s l :=
  (sorted_iff.mp h).base_injective fun a b ha hb hab => by omega

/-- The list is in order again when the new area lies between its neighbours. -/
lemma Inserted.ascending (h : Inserted s s' i p l₁ l₂) (hs : Ascending start s (l₁ ++ l₂))
    (hi : i ∉ l₁ ++ l₂) (hpos : 0 < (s.area i).size) (hle : start ≤ p)
    (hfit : p + (s.area i).size < 2 ^ 64)
    (hbefore : ∀ q ∈ l₁.getLast?, (s.area q).base + (s.area q).size ≤ p)
    (hbehind : ∀ q ∈ l₂.head?, p + (s.area i).size ≤ (s.area q).base) :
    Ascending start s' (l₁ ++ i :: l₂) :=
  ascending_iff.mpr (h.ordered (ascending_iff.mp hs) hi (fun a b c hab hbc => by omega)
    ⟨hle, hpos, hfit⟩ hbefore hbehind)

lemma vmFindGap_split (hc : Chain s.next (some c) (c :: l))
    (hfind : vmFindGap s n fuel c (s.next c) = some (q, next)) :
    ∃ l₁ l₂, c :: l = l₁ ++ q :: l₂ ∧ next = l₂.head? ∧
      ∀ r, l₂.head? = some r → add64 (s.area q).upper n ≤ (s.area r).base := by
  induction fuel generalizing c l with
  | zero => cases hfind
  | succ fuel ih =>
    cases l with
    | nil =>
      have hnext : s.next c = none := hc.2
      rw [hnext] at hfind
      cases hfind
      exact ⟨[], [], rfl, rfl, fun r hr => by cases hr⟩
    | cons d l =>
      have hnext : s.next c = some d := hc.2.1
      rw [hnext, vmFindGap] at hfind
      split_ifs at hfind with hgap
      · cases hfind
        refine ⟨[], d :: l, rfl, rfl, fun r hr => ?_⟩
        cases hr
        exact hgap
      · obtain ⟨l₁, l₂, hsplit, hhead, htest⟩ := ih ⟨rfl, hc.2.2⟩ hfind
        exact ⟨c :: l₁, l₂, by rw [hsplit, cons_append], hhead, htest⟩

lemma vmFindGap_returns (hc : Chain s.next (some c) (c :: l)) (hfuel : l.length < fuel) :
    ∃ gap, vmFindGap s n fuel c (s.next c) = some gap := by
  induction fuel generalizing c l with
  | zero => exact absurd hfuel (not_lt_zero _)
  | succ fuel ih =>
    cases l with
    | nil =>
      have hnext : s.next c = none := hc.2
      exact ⟨_, by rw [hnext, vmFindGap]⟩
    | cons d l =>
      have hnext : s.next c = some d := hc.2.1
      rw [hnext, vmFindGap]
      split_ifs
      · exact ⟨_, rfl⟩
      · exact ih ⟨rfl, hc.2.2⟩ (succ_lt_succ_iff.mp hfuel)

lemma vmAddToList_returns (hs : Chain s.next s.head l) :
    ∃ s', vmAddToList (l.length + 1) s i = some s' := by
  rw [vmAddToList]
  cases l with
  | nil =>
    have hhead : s.head = none := hs
    exact ⟨_, by rw [hhead]⟩
  | cons c l =>
    obtain ⟨gap, hgap⟩ := vmFindGap_returns (n := (s.area i).size)
      (show Chain s.next (some c) (c :: l) from ⟨rfl, hs.2⟩) (lt_succ_of_lt (lt_succ_self _))
    rw [hs.1]
    exact ⟨_, map_eq_some_iff.mpr ⟨gap, hgap, rfl⟩⟩

/-- A new area that does not wrap around leaves the list in order. -/
lemma vmAddToList_spec (hs : Ascending vmallocStart s l) (hi : i ∉ l) (hpos : 0 < (s.area i).size)
    (hadd : vmAddToList fuel s i = some s') (hfit : (s'.area i).base + (s.area i).size < 2 ^ 64) :
    ∃ b l₁ l₂, l = l₁ ++ l₂ ∧ Inserted s s' i b l₁ l₂ ∧
      Ascending vmallocStart s' (l₁ ++ i :: l₂) := by
  cases l with
  | nil =>
    have hhead : s.head = none := hs.links.chain
    rw [vmAddToList, hhead] at hadd
    cases hadd
    have hins := first_inserted s i vmallocStart
    rw [hins.bounds.1] at hfit
    exact ⟨_, [], [], rfl, hins, hins.ascending hs hi hpos le_rfl hfit (by simp) (by simp)⟩
  | cons c l =>
    have hchain := hs.links.chain
    rw [vmAddToList, hchain.1] at hadd
    obtain ⟨⟨q, next⟩, hfind, rfl⟩ := map_eq_some_iff.mp hadd
    obtain ⟨l₁, l₂, hsplit, rfl, htest⟩ := vmFindGap_split ⟨rfl, hchain.2⟩ hfind
    have hs' : Ascending vmallocStart s ((l₁ ++ [q]) ++ l₂) := by
      rw [← append_cons, ← hsplit]
      exact hs
    obtain ⟨hqs, hqpos, hqfit⟩ := hs'.placed q (by simp)
    have hupper : (s.area q).upper = (s.area q).base + (s.area q).size := mod_eq_of_lt hqfit
    have hins : Inserted s (placeBetween s i q l₂.head? (s.area q).upper) i (s.area q).upper
        (l₁ ++ [q]) l₂ := placeBetween_inserted (hsplit ▸ hs.links) (hsplit ▸ hi) _
    rw [hins.bounds.1] at hfit
    refine ⟨_, l₁ ++ [q], l₂, by rw [hsplit]; simp, hins, ?_⟩
    refine hins.ascending hs' (by rw [← append_cons, ← hsplit]; exact hi) hpos
      (by omega) hfit (fun r hr => ?_) (fun r hr => ?_)
    · rw [getLast?_concat] at hr
      cases hr
      exact hupper.ge
    · have hgap := htest r hr
      rwa [add64, mod_eq_of_lt hfit] at hgap

/-- The area with the given base is the only one that the search can find. -/
lemma Ascending.search (h : Ascending start s l) (hi : i ∈ l) :
    l.find? (fun p => decide ((s.area p).base = (s.area i).base)) = some i := by
  cases hfind : l.find? fun p => decide ((s.area p).base = (s.area i).base) with
  | none => exact absurd (find?_eq_none.mp hfind i hi) (by simp)
  | some j =>
    have hj := mem_of_find?_eq_some hfind
    have hbase : (s.area j).base = (s.area i).base := by simpa using find?_some hfind
    rw [h.base_injective j hj i hi hbase]

/-- The block for a new area is filled in before it is put on the list. -/
lemma block_filled (s : AreaList) (a : VmArea) (hi : i ∉ l) :
    (s.assign i fun _ => a).head = s.head ∧ (s.assign i fun _ => a).area i = a ∧
      ∀ p ∈ l, (s.assign i fun _ => a).area p = s.area p :=
  ⟨rfl, by rw [assign_area, if_pos rfl], assign_area_of_not_mem hi⟩

lemma roundUp_eq_wholePages (h : wholePages size < 2 ^ 64) : roundUp size = wholePages size := by
  rw [wholePages] at h
  rw [roundUp_eq, wholePages]
  omega

/-! ## Live areas -/

section

variable (h : LiveAreas round s (l₁ ++ l₂) live) (hins : Inserted s s' i b l₁ l₂)
  (hi : i ∉ l₁ ++ l₂)
  (honce : ∀ p ∈ l₁ ++ i :: l₂, ∀ q ∈ l₁ ++ i :: l₂, (s'.area p).base = (s'.area q).base → p = q)
include h hins hi honce

/-- The base of a new area was not live. -/
lemma LiveAreas.fresh : live b = none := by
  cases hlive : live b with
  | none => rfl
  | some n =>
    obtain ⟨j, hj, hrange⟩ := h.area b n hlive
    have hne : j ≠ i := fun heq => hi (heq ▸ hj)
    have hbase : (s'.area j).base = (s'.area i).base := by
      rw [(hins.bounds.2.2 j hne).1, hins.bounds.1]
      exact congrArg fst hrange
    exact absurd (honce j (by simpa [hne] using hj) i (by simp) hbase) hne

lemma LiveAreas.insert (hsize : (s.area i).size = round n) :
    LiveAreas round s' (l₁ ++ i :: l₂) (update live b (some n)) := by
  obtain ⟨hbase, hsize', hothers⟩ := hins.bounds
  have hfresh := h.fresh hins hi honce
  have hrange : ∀ j ∈ l₁ ++ l₂, (s'.area j).range = (s.area j).range := fun j hj =>
    VmArea.range_of_unlinked (hins.others j fun heq => hi (heq ▸ hj))
  refine ⟨fun b' n' hlive => ?_, fun j hj => ?_, honce⟩
  · obtain ⟨rfl, hn⟩ | ⟨-, hlive⟩ := update_eq_cases hlive
    · cases hn
      exact ⟨i, by simp, by rw [VmArea.range, hbase, hsize', hsize]⟩
    · obtain ⟨j, hj, hjrange⟩ := h.area b' n' hlive
      have hne : j ≠ i := fun heq => hi (heq ▸ hj)
      exact ⟨j, by simpa [hne] using hj, (hrange j hj).trans hjrange⟩
  · by_cases hji : j = i
    · exact ⟨n, by rw [hji, hbase, update_self]⟩
    · have hj' : j ∈ l₁ ++ l₂ := by simpa [hji] using hj
      obtain ⟨n', hn'⟩ := h.live j hj'
      refine ⟨n', ?_⟩
      rw [(hothers j hji).1, update_of_ne, hn']
      rintro heq
      rw [heq, hfresh] at hn'
      cases hn'

end

lemma liveAreas_nil (hlive : ∀ b, live b = none) : LiveAreas round s [] live := by
  refine ⟨fun b n hb => ?_, by simp, by simp [OneBase]⟩
  rw [hlive] at hb
  cases hb

lemma LiveAreas.congr (h : LiveAreas round s l live) (hsame : ∀ i ∈ l, s'.area i = s.area i) :
    LiveAreas round s' l live := by
  refine ⟨fun b n hlive => ?_, fun i hi => hsame i hi ▸ h.live i hi, fun i hi j hj heq => ?_⟩
  · obtain ⟨i, hi, hrange⟩ := h.area b n hlive
    exact ⟨i, hi, hsame i hi ▸ hrange⟩
  · rw [hsame i hi, hsame j hj] at heq
    exact h.once i hi j hj heq

/-- The area is taken from the list, and its base is not live any more. -/
lemma LiveAreas.remove (h : LiveAreas round s (l₁ ++ i :: l₂) live) (hi : i ∉ l₁ ++ l₂) :
    LiveAreas round (removeFromList s i) (l₁ ++ l₂) (update live (s.area i).base none) := by
  have hrange := fun j => VmArea.range_of_unlinked (removeFromList_unlinked s i j)
  have hbase : ∀ j, ((removeFromList s i).area j).base = (s.area j).base := fun j =>
    congrArg fst (hrange j)
  have hmem : ∀ j ∈ l₁ ++ l₂, j ∈ l₁ ++ i :: l₂ :=
    ((sublist_cons_self i l₂).append_left l₁).subset
  refine ⟨fun b n hlive => ?_, fun j hj => ?_, fun p hp q hq heq => ?_⟩
  · obtain ⟨-, hn⟩ | ⟨hb, hlive⟩ := update_eq_cases hlive
    · cases hn
    · obtain ⟨j, hj, hjrange⟩ := h.area b n hlive
      have hne : j ≠ i := by
        rintro rfl
        exact hb (congrArg fst hjrange).symm
      exact ⟨j, by simpa [hne] using hj, (hrange j).trans hjrange⟩
  · obtain ⟨n, hn⟩ := h.live j (hmem j hj)
    refine ⟨n, ?_⟩
    rw [hbase, update_of_ne, hn]
    intro heq
    exact hi (h.once j (hmem j hj) i (by simp) heq ▸ hj)
  · rw [hbase, hbase] at heq
    exact h.once p (hmem p hp) q (hmem q hq) heq

/-! ## Every step -/

/-- The list is in order, and the live results are the bases of its areas. -/
structure VmallocKept (st : VmallocState) (l : List Nat) : Prop where
  ascending : Ascending vmallocStart st.areas.vmallocs l
  areas : LiveAreas wholePages st.areas.vmallocs l st.live

lemma vmalloc_some
    (hcall : areas.vmalloc fuel cr3 size (some (i, garbage)) = some (areas', some ptr)) :
    0 < size ∧ vmAddToList fuel
        (areas.vmallocs.assign i fun _ => { garbage with size := roundUp size }) i =
          some areas'.vmallocs ∧ ptr = (areas'.vmallocs.area i).base := by
  rw [KernelAreas.vmalloc] at hcall
  by_cases hzero : size = 0
  · rw [if_pos hzero] at hcall
    cases hcall
  rw [if_neg hzero] at hcall
  obtain ⟨s, hadd, heq⟩ := map_eq_some_iff.mp hcall
  obtain ⟨rfl, hptr⟩ := mk.inj heq
  exact ⟨pos_of_ne_zero hzero, hadd, (some_inj.mp hptr).symm⟩

lemma vmalloc_none (hcall : areas.vmalloc fuel cr3 size block = some (areas', none)) :
    areas' = areas := by
  unfold KernelAreas.vmalloc at hcall
  by_cases hzero : size = 0
  · rw [if_pos hzero] at hcall
    exact (congrArg fst (some_inj.mp hcall)).symm
  rw [if_neg hzero] at hcall
  cases block with
  | none => exact (congrArg fst (some_inj.mp hcall)).symm
  | some b =>
    obtain ⟨s, -, heq⟩ := map_eq_some_iff.mp hcall
    cases congrArg snd heq

/-- The new area has the result as its base, which was not live. -/
lemma VmallocKept.vmalloc (h : VmallocKept st l) (hi : i ∉ l)
    (hcall : st.areas.vmalloc fuel cr3 size (some (i, garbage)) = some (areas, some ptr))
    (hfit : ptr + wholePages size < 2 ^ 64) :
    st.live ptr = none ∧ ∃ l', VmallocKept ⟨areas, update st.live ptr (some size)⟩ l' := by
  obtain ⟨hpos, hadd, rfl⟩ := vmalloc_some hcall
  have hsize : roundUp size = wholePages size := roundUp_eq_wholePages (by omega)
  rw [hsize] at hadd
  obtain ⟨hhead, hself, hold⟩ := block_filled st.areas.vmallocs
    { garbage with size := wholePages size } hi
  generalize st.areas.vmallocs.assign i (fun _ => { garbage with size := wholePages size }) = s at *
  have hnew : (s.area i).size = wholePages size := by rw [hself]
  obtain ⟨b, l₁, l₂, rfl, hins, hasc⟩ := vmAddToList_spec (h.ascending.congr hhead hold) hi
    (by rw [hnew, wholePages]; omega) hadd (by rw [hnew]; exact hfit)
  have hareas := h.areas.congr hold
  rw [hins.bounds.1]
  exact ⟨hareas.fresh hins hi hasc.base_injective, _, hasc,
    hareas.insert hins hi hasc.base_injective hnew⟩

/-- The search is over the whole list, whatever bound on the number of steps it returns
under. -/
lemma vfree_search (hs : Ascending start areas.vmallocs l)
    (hcall : areas.vfree fuel cr3 ptr = some areas') :
    areas'.vmallocs = match l.find? fun p => decide ((areas.vmallocs.area p).base = ptr) with
      | some i => removeFromList areas.vmallocs i
      | none => areas.vmallocs := by
  obtain ⟨found, hfound, rfl⟩ := map_eq_some_iff.mp hcall
  have hall := searchArea_eq (fun a => decide (a.base = ptr)) hs.links.chain (lt_succ_self _)
  rw [searchArea_unique hfound hall]
  cases l.find? fun p => decide ((areas.vmallocs.area p).base = ptr) <;> rfl

/-- A result that is freed takes its area from the list; any other address changes
nothing. -/
lemma VmallocKept.vfree (h : VmallocKept st l)
    (hcall : st.areas.vfree fuel cr3 ptr = some areas) :
    ∃ l', VmallocKept ⟨areas, update st.live ptr none⟩ l' := by
  have hlist := vfree_search h.ascending hcall
  cases hfind : l.find? fun p => decide ((st.areas.vmallocs.area p).base = ptr) with
  | none =>
    -- no area has this base, so it was not live
    rw [hfind] at hlist
    have hnone : st.live ptr = none := by
      cases hlive : st.live ptr with
      | none => rfl
      | some n =>
        obtain ⟨i, hi, hrange⟩ := h.areas.area ptr n hlive
        have hbase : (st.areas.vmallocs.area i).base = ptr := congrArg fst hrange
        exact absurd (find?_eq_none.mp hfind i hi) (by simp [hbase])
    rw [← hnone, update_eq_self]
    exact ⟨l, hlist ▸ h.ascending, hlist ▸ h.areas⟩
  | some i =>
    rw [hfind] at hlist
    have hbase : (st.areas.vmallocs.area i).base = ptr := by simpa using find?_some hfind
    obtain ⟨l₁, l₂, rfl⟩ := append_of_mem (mem_of_find?_eq_some hfind)
    have hi : i ∉ l₁ ++ l₂ := (nodup_cons.mp (nodup_middle.mp h.ascending.links.nodup)).1
    exact ⟨l₁ ++ l₂, hlist ▸ h.ascending.remove, hlist ▸ hbase ▸ h.areas.remove hi⟩

lemma VmallocKept.notMem (h : VmallocKept st l)
    (hfresh : Fresh st.areas.vmallocs (some (i, garbage))) :
    i ∉ l := fun hi => hfresh _ _ rfl (h.ascending.links.chain.reaches_iff.mpr hi)

lemma VmallocKept.step (h : VmallocKept st l) (hact : NoWrap act) (hstep : VmallocStep st act st') :
    ∃ l', VmallocKept st' l' := by
  cases hstep with
  | vmalloc hfresh hcall => exact (h.vmalloc (h.notMem hfresh) hcall hact).2
  | fails hcall =>
    cases vmalloc_none hcall
    exact ⟨l, h⟩
  | vfree hcall => exact h.vfree hcall

lemma VmallocKept.reached (run : vmallocMachine.Reached (fun _ => NoWrap) st) :
    ∃ l, VmallocKept st l := by
  have hstart : ∀ st, vmallocMachine.start st → ∃ l, VmallocKept st l := by
    intro st hst
    refine ⟨[], ⟨?_, by simp, List.Pairwise.nil⟩, liveAreas_nil hst.2⟩
    rw [hst.1]
    exact ⟨rfl, trivial⟩
  exact run.invariant hstart fun st act st' ⟨l, h⟩ hact hstep => h.step hact hstep

lemma VmallocKept.frees (h : VmallocKept st l) (hi : i ∈ l) : FreesArea st.areas l i := by
  have hfind := h.ascending.search hi
  refine ⟨fun cr3 => ?_, fun fuel cr3 areas hcall => ?_⟩
  · have hsearch := searchArea_eq
      (fun a => decide (a.base = (st.areas.vmallocs.area i).base)) h.ascending.links.chain
      (lt_succ_self _)
    exact ⟨l.length + 1, _, by rw [KernelAreas.vfree, hsearch]; rfl⟩
  · have hlist := vfree_search h.ascending hcall
    rw [hfind] at hlist
    rw [hlist]
    refine ⟨?_, removeFromList_unlinked _ _⟩
    obtain ⟨l₁, l₂, rfl⟩ := append_of_mem hi
    have hnot := (nodup_cons.mp (nodup_middle.mp h.ascending.links.nodup)).1
    rw [erase_append_right _ (mt (mem_append_left l₂) hnot), erase_cons_head]
    exact h.ascending.remove

lemma VmallocKept.sound (h : VmallocKept st l) : VmallocSound st where
  list := ⟨l, h.ascending, h.areas, fun i hi => h.frees hi⟩
  returns cr3 size block hfresh := by
    unfold KernelAreas.vmalloc
    by_cases hzero : size = 0
    · exact ⟨0, _, by rw [if_pos hzero]⟩
    cases block with
    | none => exact ⟨0, _, by rw [if_neg hzero]⟩
    | some block =>
      obtain ⟨i, garbage⟩ := block
      obtain ⟨hhead, -, hold⟩ := block_filled st.areas.vmallocs
        { garbage with size := roundUp size } (h.notMem hfresh)
      obtain ⟨s', hs'⟩ := vmAddToList_returns (i := i)
        (links_congr h.ascending.links hhead hold).chain
      exact ⟨l.length + 1, _, (if_neg hzero).trans (map_eq_some_iff.mpr ⟨s', hs', rfl⟩)⟩
  fresh cr3 size block ptr st' hstep hfit := by
    cases hstep with
    | vmalloc hfresh hcall => exact (h.vmalloc (h.notMem hfresh) hcall hfit).1

/-! ## User stacks -/

/-- The kernel, with the size of each live stack under its upper end. -/
structure StackListState where
  kernel : Kernel
  live : Nat → Option Nat

inductive StackListAction where
  | alloc (size : Nat) (block : Option (Nat × VmArea)) (ret : Option Nat)
  | remove (i : Nat)

def StackListState.stacks (st : StackListState) (p : Nat) : AreaList :=
  (st.kernel.process p).ustacks

/-- The calls of `user_alloc_stack` and `us_remove_from_list` for process `p`. -/
inductive StackListStep (p : Nat) : StackListState → StackListAction → StackListState → Prop
  | alloc {st : StackListState} {k : Kernel} {fuel size i top : Nat} {garbage : VmArea}
      (hfresh : Fresh (st.stacks p) (some (i, garbage)))
      (hcall : st.kernel.userAllocStack fuel p size (some (i, garbage)) = some (k, some top)) :
      StackListStep p st (.alloc size (some (i, garbage)) (some top))
        ⟨k, update st.live top (some size)⟩
  | fails {st : StackListState} {k : Kernel} {fuel size : Nat} {block : Option (Nat × VmArea)}
      (hcall : st.kernel.userAllocStack fuel p size block = some (k, none)) :
      StackListStep p st (.alloc size block none) ⟨k, st.live⟩
  | remove {st : StackListState} {i : Nat} (hlive : st.kernel.OnStackList p i) :
      StackListStep p st (.remove i)
        ⟨st.kernel.setProcess p fun pr => { pr with ustacks := removeFromList pr.ustacks i },
          update st.live ((st.stacks p).area i).base none⟩

def stackListMachine (p : Nat) : Machine StackListState StackListAction where
  start st := (st.stacks p).head = none ∧ ∀ top, st.live top = none
  step := StackListStep p

/-- No address of the new stack wraps around. -/
def NoWrapBelow : StackListAction → Prop
  | .alloc size _ (some top) => size < top
  | _ => True

/-- The list of the process is in order from the top downwards and its areas are the live
stacks. -/
structure StackListKept (p : Nat) (st : StackListState) (l : List Nat) : Prop where
  sorted : Sorted userStackMax (st.stacks p) l
  areas : LiveAreas id (st.stacks p) l st.live

/-- `us_remove_from_list` takes exactly the area it is given from the list. A further
`user_alloc_stack` returns, and its result was not live. -/
structure StackListSound (p : Nat) (st : StackListState) : Prop where
  list : ∃ l, StackListKept p st l ∧ ∀ i ∈ l,
    Sorted userStackMax (removeFromList (st.stacks p) i) (l.erase i) ∧
    ∀ j, ((removeFromList (st.stacks p) i).area j).unlinked = ((st.stacks p).area j).unlinked
  returns : ∀ size block, size < 2 ^ 64 → Fresh (st.stacks p) block →
    ∃ fuel r, st.kernel.userAllocStack fuel p size block = some r
  fresh : ∀ size block top st', StackListStep p st (.alloc size block (some top)) st' →
    size < top → st.live top = none

variable {k k' : Kernel} {sst sst' : StackListState} {top : Nat} {sact : StackListAction}

lemma userAllocStack_some
    (hcall : k.userAllocStack fuel p size (some (i, garbage)) = some (k', some top)) :
    0 < size ∧ addToList userStackMax fuel
        ((k.process p).ustacks.assign i fun _ => { garbage with size := size }) i =
          some (k'.process p).ustacks ∧ top = ((k'.process p).ustacks.area i).base := by
  rw [Kernel.userAllocStack] at hcall
  by_cases hzero : size = 0
  · rw [if_pos hzero] at hcall
    cases hcall
  rw [if_neg hzero] at hcall
  obtain ⟨s', hadd, heq⟩ := map_eq_some_iff.mp hcall
  obtain ⟨rfl, htop⟩ := mk.inj heq
  have hlist : ((k.setProcess p fun pr => { pr with ustacks := s' }).process p).ustacks = s' := by
    rw [setProcess_process, if_pos rfl]
  refine ⟨pos_of_ne_zero hzero, ?_, ?_⟩
  · rw [hadd]
    exact congrArg some hlist.symm
  · rw [← some_inj.mp htop]
    exact congrArg (fun s : AreaList => (s.area i).base) hlist.symm

lemma userAllocStack_none
    (hcall : k.userAllocStack fuel p size block = some (k', none)) : k' = k := by
  unfold Kernel.userAllocStack at hcall
  by_cases hzero : size = 0
  · rw [if_pos hzero] at hcall
    exact (congrArg fst (some_inj.mp hcall)).symm
  rw [if_neg hzero] at hcall
  cases block with
  | none => exact (congrArg fst (some_inj.mp hcall)).symm
  | some b =>
    obtain ⟨s, -, heq⟩ := map_eq_some_iff.mp hcall
    cases congrArg snd heq

lemma StackListKept.notMem (h : StackListKept p sst l)
    (hfresh : Fresh (sst.stacks p) (some (i, garbage))) : i ∉ l :=
  fun hi => hfresh _ _ rfl (h.sorted.links.chain.reaches_iff.mpr hi)

lemma StackListKept.alloc (h : StackListKept p sst l) (hi : i ∉ l)
    (hcall : sst.kernel.userAllocStack fuel p size (some (i, garbage)) = some (k, some top))
    (hfit : size < top) :
    sst.live top = none ∧ ∃ l', StackListKept p ⟨k, update sst.live top (some size)⟩ l' := by
  obtain ⟨hpos, hadd, rfl⟩ := userAllocStack_some hcall
  obtain ⟨hhead, hself, hold⟩ := block_filled (sst.stacks p) { garbage with size := size } hi
  rw [show (sst.kernel.process p).ustacks = sst.stacks p from rfl] at hadd
  generalize (sst.stacks p).assign i (fun _ => { garbage with size := size }) = s at *
  have hnew : (s.area i).size = size := by rw [hself]
  have hs := h.sorted.congr hhead hold
  obtain ⟨b, hb, m1, m2, -, hins'⟩ := addToList_inserted hs.links hi (by decide) hadd
  rw [hins'.bounds.1] at hfit
  obtain ⟨s', b', l₁, l₂, hadd', hsplit, hins, hroom, -, hsorted⟩ := addToList_spec hs
    (by decide) hi (by rw [hnew]; omega) (le_add_left l.length fuel)
  have hsame := addToList_mono (k := l.length) hadd
  rw [hadd'] at hsame
  cases hsame
  subst hsplit
  have hbb : b' = b := hins.bounds.1.symm.trans hins'.bounds.1
  rw [hnew] at hroom hsorted
  have hsorted := hsorted (hroom.mpr (hbb ▸ hfit)) hpos
  have hareas := h.areas.congr hold
  rw [hins.bounds.1]
  exact ⟨hareas.fresh hins hi hsorted.base_injective, _, hsorted,
    hareas.insert hins hi hsorted.base_injective hnew⟩

lemma StackListKept.step (h : StackListKept p sst l) (hact : NoWrapBelow sact)
    (hstep : StackListStep p sst sact sst') : ∃ l', StackListKept p sst' l' := by
  cases hstep with
  | alloc hfresh hcall => exact (h.alloc (h.notMem hfresh) hcall hact).2
  | fails hcall => exact ⟨l, userAllocStack_none hcall ▸ h⟩
  | @remove i hlive =>
    obtain ⟨l₁, l₂, rfl⟩ := append_of_mem (h.sorted.links.chain.reaches_iff.mp hlive)
    have hi : i ∉ l₁ ++ l₂ := (nodup_cons.mp (nodup_middle.mp h.sorted.links.nodup)).1
    refine ⟨l₁ ++ l₂, ?_, ?_⟩ <;> rw [StackListState.stacks, setProcess_process, if_pos rfl]
    · exact h.sorted.remove
    · exact h.areas.remove hi

lemma StackListKept.reached (run : (stackListMachine p).Reached (fun _ => NoWrapBelow) sst) :
    ∃ l, StackListKept p sst l := by
  have hstart : ∀ st, (stackListMachine p).start st → ∃ l, StackListKept p st l := by
    intro st hst
    refine ⟨[], ⟨?_, by simp, List.Pairwise.nil⟩, liveAreas_nil hst.2⟩
    rw [hst.1]
    exact ⟨rfl, trivial⟩
  exact run.invariant hstart fun st act st' ⟨l, h⟩ hact hstep => h.step hact hstep

lemma StackListKept.sound (h : StackListKept p sst l) : StackListSound p sst where
  list := by
    refine ⟨l, h, fun i hi => ⟨?_, removeFromList_unlinked _ _⟩⟩
    obtain ⟨l₁, l₂, rfl⟩ := append_of_mem hi
    have hnot := (nodup_cons.mp (nodup_middle.mp h.sorted.links.nodup)).1
    rw [erase_append_right _ (mt (mem_append_left l₂) hnot), erase_cons_head]
    exact h.sorted.remove
  returns size block hsize hfresh := by
    unfold Kernel.userAllocStack
    by_cases hzero : size = 0
    · exact ⟨0, _, by rw [if_pos hzero]⟩
    cases block with
    | none => exact ⟨0, _, by rw [if_neg hzero]⟩
    | some block =>
      obtain ⟨i, garbage⟩ := block
      obtain ⟨hhead, hself, hold⟩ := block_filled (sst.stacks p) { garbage with size := size }
        (h.notMem hfresh)
      obtain ⟨s', -, -, -, hadd, -⟩ := addToList_spec (h.sorted.congr hhead hold) (by decide)
        (h.notMem hfresh) (by rw [hself]; exact hsize) le_rfl
      exact ⟨l.length, _, (if_neg hzero).trans (map_eq_some_iff.mpr ⟨s', hadd, rfl⟩)⟩
  fresh size block top st' hstep hfit := by
    cases hstep with
    | alloc hfresh hcall => exact (h.alloc (h.notMem hfresh) hcall hfit).1

/-! ## Main result -/

/-- Areas of the kernel and stacks of a process never overlap as long as none wraps
around, over every sequence of calls. -/
theorem kernel_areas_never_overlap :
    (∀ st, vmallocMachine.Reached (fun _ => NoWrap) st → VmallocSound st) ∧
      ∀ p st, (stackListMachine p).Reached (fun _ => NoWrapBelow) st → StackListSound p st := by
  refine ⟨fun st run => ?_, fun p st run => ?_⟩
  · obtain ⟨l, h⟩ := VmallocKept.reached run
    exact h.sound
  · obtain ⟨l, h⟩ := StackListKept.reached run
    exact h.sound

def noKernelAreas : KernelAreas := ⟨stackKernel, ⟨fun _ => blankArea, none⟩⟩

lemma fresh_of_chain {a : VmArea} (hc : Chain s.next s.head l) (hi : i ∉ l) :
    Fresh s (some (i, a)) := by
  rintro j a' ⟨⟩ hreach
  exact hi (hc.reaches_iff.mp hreach)

/-- The state after a `vmalloc` that returns `ptr`. -/
def VmallocState.allocated (st : VmallocState) (size i ptr : Nat) : VmallocState :=
  ⟨((st.areas.vmalloc 4 0 size (some (i, blankArea))).getD (st.areas, none)).1,
    update st.live ptr (some size)⟩

lemma allocated_reached (run : vmallocMachine.Reached (fun _ => NoWrap) st)
    (hc : Chain st.areas.vmallocs.next st.areas.vmallocs.head l) (hi : i ∉ l)
    (hret : (st.areas.vmalloc 4 0 size (some (i, blankArea))).map snd = some (some ptr))
    (hfit : ptr + wholePages size < 2 ^ 64) :
    vmallocMachine.Reached (fun _ => NoWrap) (st.allocated size i ptr) := by
  obtain ⟨⟨areas, ret⟩, hcall, rfl⟩ := map_eq_some_iff.mp hret
  have hstep : VmallocStep st (.vmalloc 0 size (some (i, blankArea)) (some ptr))
      (st.allocated size i ptr) := by
    rw [VmallocState.allocated, hcall]
    exact .vmalloc (fresh_of_chain hc hi) hcall
  exact run.step (a := .vmalloc 0 size (some (i, blankArea)) (some ptr)) hfit hstep

/-- Three areas one above the other. -/
def threeAreas : VmallocState :=
  (((⟨noKernelAreas, fun _ => none⟩ : VmallocState).allocated 5000 1 vmallocStart).allocated 100 2
    (vmallocStart + 8192)).allocated 4096 3 (vmallocStart + 12288)

/-- The one in the middle is freed, and the next one takes its place. -/
def middleFreed : VmallocState :=
  ⟨(threeAreas.areas.vfree 4 0 (vmallocStart + 8192)).getD noKernelAreas,
    update threeAreas.live (vmallocStart + 8192) none⟩

def middleTaken : VmallocState := middleFreed.allocated 50 4 (vmallocStart + 8192)

lemma middleTaken_reached : vmallocMachine.Reached (fun _ => NoWrap) middleTaken := by
  have hstart : vmallocMachine.start ⟨noKernelAreas, fun _ => none⟩ := ⟨rfl, fun _ => rfl⟩
  have h₃ : vmallocMachine.Reached (fun _ => NoWrap) threeAreas := by
    refine allocated_reached (l := [1, 2]) (allocated_reached (l := [1])
      (allocated_reached (l := []) (.start hstart) rfl (by decide) rfl (by decide))
      ⟨rfl, rfl⟩ (by decide) rfl (by decide)) ⟨rfl, rfl, rfl⟩ (by decide) rfl (by decide)
  have hcall : threeAreas.areas.vfree 4 0 (vmallocStart + 8192) = some middleFreed.areas := rfl
  have hfreed : vmallocMachine.Reached (fun _ => NoWrap) middleFreed :=
    h₃.step (a := .vfree 0 (vmallocStart + 8192)) trivial (.vfree hcall)
  exact allocated_reached (l := [1, 3]) hfreed ⟨rfl, rfl, rfl⟩ (by decide) rfl (by decide)

/-- The state after a `user_alloc_stack` of process 0 that returns `top`. -/
def StackListState.allocated (st : StackListState) (size i top : Nat) : StackListState :=
  ⟨((st.kernel.userAllocStack 4 0 size (some (i, blankArea))).getD (st.kernel, none)).1,
    update st.live top (some size)⟩

lemma stack_allocated_reached (run : (stackListMachine 0).Reached (fun _ => NoWrapBelow) sst)
    (hc : Chain (sst.stacks 0).next (sst.stacks 0).head l) (hi : i ∉ l)
    (hret : (sst.kernel.userAllocStack 4 0 size (some (i, blankArea))).map snd = some (some top))
    (hfit : size < top) :
    (stackListMachine 0).Reached (fun _ => NoWrapBelow) (sst.allocated size i top) := by
  obtain ⟨⟨k, ret⟩, hcall, rfl⟩ := map_eq_some_iff.mp hret
  have hstep : StackListStep 0 sst (.alloc size (some (i, blankArea)) (some top))
      (sst.allocated size i top) := by
    rw [StackListState.allocated, hcall]
    exact .alloc (fresh_of_chain hc hi) hcall
  exact run.step (a := .alloc size (some (i, blankArea)) (some top)) hfit hstep

/-- Two stacks, of which the upper one is taken from the list. The next one lies below. -/
def bothStacks : StackListState :=
  ((⟨stackKernel, fun _ => none⟩ : StackListState).allocated 8192 1 userStackMax).allocated 8192 2
    (userStackMax - 8192)

def upperRemoved : StackListState :=
  ⟨bothStacks.kernel.setProcess 0 fun pr => { pr with ustacks := removeFromList pr.ustacks 1 },
    update bothStacks.live ((bothStacks.stacks 0).area 1).base none⟩

def lowerStacks : StackListState := upperRemoved.allocated 4096 3 (userStackMax - 16384)

lemma lowerStacks_reached : (stackListMachine 0).Reached (fun _ => NoWrapBelow) lowerStacks := by
  have hstart : (stackListMachine 0).start ⟨stackKernel, fun _ => none⟩ := ⟨rfl, fun _ => rfl⟩
  have h₂ : (stackListMachine 0).Reached (fun _ => NoWrapBelow) bothStacks :=
    stack_allocated_reached (l := [1])
      (stack_allocated_reached (l := []) (.start hstart) rfl (by decide) rfl (by decide))
      ⟨rfl, rfl⟩ (by decide) rfl (by decide)
  have hc : Chain (bothStacks.stacks 0).next (bothStacks.stacks 0).head [1, 2] := ⟨rfl, rfl, rfl⟩
  have hlive : bothStacks.kernel.OnStackList 0 1 := hc.reaches_iff.mpr (by decide)
  have hremoved : (stackListMachine 0).Reached (fun _ => NoWrapBelow) upperRemoved :=
    h₂.step (a := .remove 1) trivial (.remove hlive)
  exact stack_allocated_reached (l := [2]) hremoved ⟨rfl, rfl⟩ (by decide) rfl (by decide)

/-- Three live areas and two live stacks. -/
theorem kernel_areas_never_overlap_reuse :
    (VmallocSound middleTaken ∧ middleTaken.live vmallocStart = some 5000 ∧
      middleTaken.live (vmallocStart + 8192) = some 50 ∧
      middleTaken.live (vmallocStart + 12288) = some 4096) ∧
    StackListSound 0 lowerStacks ∧ lowerStacks.live (userStackMax - 8192) = some 8192 ∧
      lowerStacks.live (userStackMax - 16384) = some 4096 :=
  ⟨⟨kernel_areas_never_overlap.1 _ middleTaken_reached, by decide, by decide, by decide⟩,
    kernel_areas_never_overlap.2 0 _ lowerStacks_reached, by decide, by decide⟩

end DestinX.Vm
