import Mathlib.Data.List.Chain
import DestinX.Base.LinkedList
import DestinX.Fs.Dfs

/-!
# Lists of address ranges

`vm_area_t` with the list code that `mm/mmap.c` and `mm/stack.c` have in common. The field `base`
is the upper end of an area, and a list runs downwards: a new area is put right below the first
one that is followed by a gap it fits into, or below the last one. The gap is computed by two
subtractions that wrap around.
-/

namespace DestinX.Vm

open Base Fs Function List Option Nat

/-- `vm_area_t`. A file is given by the address of its `FILE`. -/
structure VmArea where
  (base size prot flags file filePgoff : Nat)
  (next prev : Option Nat)
  deriving DecidableEq, Repr

/-- The areas at their addresses, and the head of the list. -/
structure AreaList where
  area : Nat → VmArea
  head : Option Nat

def AreaList.next (s : AreaList) (p : Nat) : Option Nat := (s.area p).next

def AreaList.prev (s : AreaList) (p : Nat) : Option Nat := (s.area p).prev

/-- Assign to fields of the area at `p`. -/
def AreaList.assign (s : AreaList) (p : Nat) (f : VmArea → VmArea) : AreaList :=
  { s with area := update s.area p (f (s.area p)) }

/-- The same for a pointer that may be null. -/
def AreaList.assignAt (s : AreaList) (p : Option Nat) (f : VmArea → VmArea) : AreaList :=
  match p with
  | some p => s.assign p f
  | none => s

/-- The lower end, as the code computes it. -/
def VmArea.lower (a : VmArea) : Nat := sub64 a.base a.size

/-- The `while` loop: the areas between which the new one goes. -/
def findGap (s : AreaList) (size : Nat) : Nat → Nat → Option Nat → Option (Nat × Option Nat)
  | 0, _, _ => none
  | _ + 1, current, none => some (current, none)
  | fuel + 1, current, some next =>
    if (s.area next).base ≤ sub64 (s.area current).lower size then some (current, some next)
    else findGap s size fuel next (s.next next)

def insertBetween (s : AreaList) (i current : Nat) (next : Option Nat) : AreaList :=
  ((s.assign i fun a =>
      { a with base := (s.area current).lower, next := next, prev := some current }).assign
    current fun a => { a with next := some i }).assignAt next fun a => { a with prev := some i }

/-- `mmap_add_to_list` and `us_add_to_list`, which differ in the first address. The
second argument bounds the number of areas that the loop visits. -/
def addToList (start fuel : Nat) (s : AreaList) (i : Nat) : Option AreaList :=
  match s.head with
  | none =>
    some { s.assign i fun a => { a with base := start, prev := none, next := none } with
      head := some i }
  | some h =>
    (findGap s (s.area i).size fuel h (s.next h)).map fun gap => insertBetween s i gap.1 gap.2

/-- `mmap_remove_from_list` and `us_remove_from_list` -/
def removeFromList (s : AreaList) (i : Nat) : AreaList :=
  let t := ({ s with head := if s.head = some i then s.next i else s.head }.assignAt
    (s.next i) fun a => { a with prev := s.prev i }).assignAt
    (s.prev i) fun a => { a with next := s.next i }
  t.assign i fun a => { a with next := none, prev := none }

/-- The first area on the list that passes the test. -/
def searchArea (s : AreaList) (test : VmArea → Bool) : Nat → Option Nat → Option (Option Nat)
  | 0, _ => none
  | _ + 1, none => some none
  | fuel + 1, some current =>
    if test (s.area current) then some (some current)
    else searchArea s test fuel (s.next current)

/-! ## Lists in order -/

/-- The lower end of an area that does not wrap around. -/
def VmArea.low (a : VmArea) : Nat := a.base - a.size

structure VmArea.Placed (start : Nat) (a : VmArea) : Prop where
  size_pos : 0 < a.size
  size_lt : a.size < a.base
  base_le : a.base ≤ start

/-- The area at `q` lies below the one at `p`. -/
def AreaList.Below (s : AreaList) (p q : Nat) : Prop := (s.area q).base ≤ (s.area p).low

/-- The areas on the list are `l`, from the top downwards. -/
structure Sorted (start : Nat) (s : AreaList) (l : List Nat) : Prop where
  links : DList s.next s.prev s.head l
  placed : ∀ p ∈ l, (s.area p).Placed start
  below : l.Pairwise s.Below

/-- There is room for `n` bytes between two areas of the list or below the last one. -/
def AreaList.Room (start : Nat) (s : AreaList) (n : Nat) : List Nat → Prop
  | [] => n < start
  | [p] => n < (s.area p).low
  | p :: q :: l => (s.area q).base + n ≤ (s.area p).low ∨ s.Room start n (q :: l)

/-- The base that a new area of `n` bytes gets when there is room for it. -/
def AreaList.place (start : Nat) (s : AreaList) (n : Nat) : List Nat → Nat
  | [] => start
  | [p] => (s.area p).low
  | p :: q :: l =>
    if (s.area q).base + n ≤ (s.area p).low then (s.area p).low else s.place start n (q :: l)

variable {start n fuel i p q c : Nat} {s s' : AreaList} {a : VmArea} {l l₁ l₂ : List Nat}
  {P : Nat × Nat → Prop} {R : Nat × Nat → Nat × Nat → Prop}

lemma VmArea.Placed.lower_eq (h : a.Placed start) (hstart : start < 2 ^ 64) : a.lower = a.low := by
  have h1 := h.size_lt
  have h2 := h.base_le
  simp only [VmArea.lower, VmArea.low, sub64]
  omega

lemma VmArea.Placed.low_lt (h : a.Placed start) : a.low < a.base := by
  have h1 := h.size_pos
  have h2 := h.size_lt
  rw [VmArea.low]
  omega

/-- Room on a list is room below its first area. -/
lemma AreaList.Room.lt_low (h : s.Room start n (p :: l))
    (hplaced : ∀ q ∈ p :: l, (s.area q).Placed start) (hbelow : (p :: l).Pairwise s.Below) :
    n < (s.area p).low := by
  induction l generalizing p with
  | nil => exact h
  | cons q l ih =>
    have hq := hplaced q (by simp)
    rcases h with hgap | hrest
    · have h2 := hq.size_lt
      omega
    · have hlow := ih hrest (fun r hr => hplaced r (mem_cons_of_mem p hr))
        (pairwise_cons.mp hbelow).2
      have hpq : (s.area q).base ≤ (s.area p).low := (pairwise_cons.mp hbelow).1 q (by simp)
      have hbase := hq.low_lt
      omega

/-! ## Searching -/

section Search

variable {test : VmArea → Bool} {h found found' : Option Nat}

lemma searchArea_mono {d : Nat} :
    searchArea s test fuel h = some found → searchArea s test (fuel + d) h = some found := by
  induction fuel generalizing h with
  | zero =>
    intro hr
    simp [searchArea] at hr
  | succ fuel ih =>
    intro hr
    rw [add_right_comm]
    cases h with
    | none => exact hr
    | some c =>
      rw [searchArea] at hr ⊢
      split_ifs at hr ⊢ with htest
      · exact hr
      · exact ih hr

lemma searchArea_unique {fuel' : Nat} (hr : searchArea s test fuel h = some found)
    (hr' : searchArea s test fuel' h = some found') : found = found' := by
  have h1 := searchArea_mono (d := fuel') hr
  have h2 := searchArea_mono (d := fuel) hr'
  rw [add_comm] at h2
  exact some.inj (h1.symm.trans h2)

lemma searchArea_eq (test : VmArea → Bool) (hc : Chain s.next h l)
    (hfuel : l.length < fuel) :
    searchArea s test fuel h = some (l.find? fun p => test (s.area p)) := by
  induction l generalizing h fuel with
  | nil =>
    obtain ⟨fuel, rfl⟩ := exists_eq_add_one_of_ne_zero (ne_zero_of_lt hfuel)
    rw [chain_nil.mp hc]
    rfl
  | cons c l ih =>
    obtain ⟨fuel, rfl⟩ := exists_eq_add_one_of_ne_zero (ne_zero_of_lt hfuel)
    rw [hc.1, searchArea]
    cases htest : test (s.area c) with
    | true => simp [htest]
    | false =>
      simp only [Bool.false_eq_true, if_false, find?_cons, htest]
      exact ih hc.2 (by simpa using hfuel)

lemma searchArea_found (hfound : searchArea s test fuel h = some (some i)) :
    test (s.area i) = true ∧ Reaches s.next h i := by
  induction fuel generalizing h with
  | zero => cases hfound
  | succ fuel ih =>
    cases h with
    | none => cases hfound
    | some c =>
      rw [searchArea] at hfound
      split_ifs at hfound with htest
      · obtain rfl : c = i := by simpa using hfound
        exact ⟨htest, .here⟩
      · obtain ⟨hi, hr⟩ := ih hfound
        exact ⟨hi, .there hr⟩

end Search

/-! ## Insertion -/

/-- The test of the loop, for an area that is followed by another one. -/
lemma gap_test_iff (hp : (s.area p).Placed start) (hbelow : s.Below p q) (hstart : start < 2 ^ 64)
    (hn : n < 2 ^ 64) : (s.area q).base ≤ sub64 (s.area p).lower n ↔
      (s.area q).base + n ≤ (s.area p).low ∨ (s.area p).low < n := by
  have hlow : (s.area p).low < 2 ^ 64 := (hp.low_lt.trans_le hp.base_le).trans hstart
  rw [AreaList.Below] at hbelow
  rw [hp.lower_eq hstart, sub64]
  omega

/-- The loop stops at an area with enough room behind it, provided that there is one. -/
lemma findGap_spec (hstart : start < 2 ^ 64) (hn : n < 2 ^ 64)
    (hc : Chain s.next (some c) (c :: l)) (hplaced : ∀ p ∈ c :: l, (s.area p).Placed start)
    (hbelow : (c :: l).Pairwise s.Below) (hfuel : l.length < fuel) :
    ∃ l₁ p l₂, c :: l = l₁ ++ p :: l₂ ∧ findGap s n fuel c (s.next c) = some (p, l₂.head?) ∧
      (s.Room start n (c :: l) ↔ n < (s.area p).low) ∧
      (n < (s.area p).low → s.place start n (c :: l) = (s.area p).low ∧
        ∀ q, l₂.head? = some q → (s.area q).base + n ≤ (s.area p).low) := by
  induction l generalizing c fuel with
  | nil =>
    obtain ⟨fuel, rfl⟩ := exists_eq_add_one_of_ne_zero (ne_of_gt hfuel)
    have hnext : s.next c = none := hc.2
    refine ⟨[], c, [], rfl, ?_, Iff.rfl, fun _ => ⟨rfl, fun q hq => by cases hq⟩⟩
    rw [hnext, findGap, head?_nil]
  | cons d l ih =>
    obtain ⟨fuel, rfl⟩ := exists_eq_add_one_of_ne_zero (ne_zero_of_lt hfuel)
    have hnext : s.next c = some d := hc.2.1
    have hcp := hplaced c (by simp)
    have hpw := pairwise_cons.mp hbelow
    have htest := gap_test_iff (n := n) hcp (hpw.1 d (by simp)) hstart hn
    rw [hnext, findGap]
    by_cases hgap : (s.area d).base ≤ sub64 (s.area c).lower n
    · rw [if_pos hgap]
      refine ⟨[], c, d :: l, rfl, rfl, ⟨fun hroom => hroom.lt_low hplaced hbelow, fun hlt => ?_⟩,
        fun hlt => ⟨?_, fun q hq => ?_⟩⟩
      · exact .inl ((htest.mp hgap).resolve_right (by omega))
      · exact if_pos ((htest.mp hgap).resolve_right (by omega))
      · cases hq
        exact (htest.mp hgap).resolve_right (by omega)
    · rw [if_neg hgap]
      obtain ⟨l₁, p, l₂, hsplit, hfind, hroom, hbehind⟩ := ih
        (show Chain s.next (some d) (d :: l) from ⟨rfl, hc.2.2⟩)
        (fun r hr => hplaced r (mem_cons_of_mem c hr)) hpw.2 (by simpa using hfuel)
      have hno : ¬ (s.area d).base + n ≤ (s.area c).low := fun h => hgap (htest.mpr (.inl h))
      refine ⟨c :: l₁, p, l₂, by rw [hsplit, cons_append], hfind, ?_, fun hlt => ?_⟩
      · rw [← hroom]
        exact or_iff_right hno
      · rw [AreaList.place, if_neg hno]
        exact hbehind hlt

/-! ## What the list operations change -/

def VmArea.withBase (a : VmArea) (b : Nat) : VmArea := { a with base := b }

/-- An area without its links. -/
def VmArea.unlinked (a : VmArea) : VmArea := { a with next := none, prev := none }

/-- What the place of an area depends on. -/
def VmArea.range (a : VmArea) : Nat × Nat := (a.base, a.size)

lemma VmArea.range_of_unlinked {b : VmArea} (h : a.unlinked = b.unlinked) : a.range = b.range := by
  change a.unlinked.range = b.unlinked.range
  rw [h]

lemma VmArea.base_of_unlinked {b : VmArea} (h : a.unlinked = b.unlinked) : a.base = b.base :=
  congrArg Prod.fst (range_of_unlinked h)

lemma VmArea.size_of_unlinked {b : VmArea} (h : a.unlinked = b.unlinked) : a.size = b.size :=
  congrArg Prod.snd (range_of_unlinked h)

lemma assign_area (s : AreaList) (p q : Nat) (f : VmArea → VmArea) :
    (s.assign p f).area q = if q = p then f (s.area q) else s.area q := by
  by_cases h : q = p
  · rw [if_pos h, h]
    exact update_self _ _ _
  · rw [if_neg h]
    exact update_of_ne h _ _

lemma assignAt_area (s : AreaList) (p : Option Nat) (q : Nat) (f : VmArea → VmArea) :
    (s.assignAt p f).area q = if p = some q then f (s.area q) else s.area q := by
  cases p with
  | none => rfl
  | some p =>
    rw [AreaList.assignAt, assign_area]
    simp only [some.injEq, eq_comm]

@[simp] lemma assign_head (s : AreaList) (p : Nat) (f : VmArea → VmArea) :
    (s.assign p f).head = s.head := rfl

@[simp] lemma assignAt_head (s : AreaList) (p : Option Nat) (f : VmArea → VmArea) :
    (s.assignAt p f).head = s.head := by cases p <;> rfl

/-- The area `i` goes between two neighbours, with the given base. -/
def placeBetween (s : AreaList) (i current : Nat) (next : Option Nat) (base : Nat) : AreaList :=
  ((s.assign i fun a => { a with base := base, next := next, prev := some current }).assign
    current fun a => { a with next := some i }).assignAt next fun a => { a with prev := some i }

lemma insertBetween_eq (s : AreaList) (i current : Nat) (next : Option Nat) :
    insertBetween s i current next = placeBetween s i current next (s.area current).lower := rfl

lemma placeBetween_next (next : Option Nat) (b : Nat) : (placeBetween s i c next b).next p =
      if p = c then some i else if p = i then next else s.next p := by
  simp only [AreaList.next, placeBetween, assignAt_area, assign_area]
  grind

lemma placeBetween_prev {next : Option Nat} (hin : next ≠ some i) (b : Nat) :
    (placeBetween s i c next b).prev p =
      if p = i then some c else if next = some p then some i else s.prev p := by
  simp only [AreaList.prev, placeBetween, assignAt_area, assign_area]
  grind

lemma placeBetween_unlinked (hp : p ≠ i) (c : Nat) (next : Option Nat) (b : Nat) :
    ((placeBetween s i c next b).area p).unlinked = (s.area p).unlinked := by
  simp only [placeBetween, assignAt_area, assign_area, if_neg hp]
  split_ifs <;> rfl

lemma placeBetween_self (s : AreaList) (i c : Nat) (next : Option Nat) (b : Nat) :
    ((placeBetween s i c next b).area i).unlinked = ((s.area i).withBase b).unlinked := by
  simp only [placeBetween, assignAt_area, assign_area]
  split_ifs <;> rfl

/-- The area `i` is on the list, between `l₁` and `l₂`, and has a base. Nothing else has
changed. -/
structure Inserted (s s' : AreaList) (i b : Nat) (l₁ l₂ : List Nat) : Prop where
  links : DList s'.next s'.prev s'.head (l₁ ++ i :: l₂)
  self : (s'.area i).unlinked = ((s.area i).withBase b).unlinked
  others : ∀ p, p ≠ i → (s'.area p).unlinked = (s.area p).unlinked

lemma placeBetween_inserted (hd : DList s.next s.prev s.head (l₁ ++ c :: l₂))
    (hi : i ∉ l₁ ++ c :: l₂) (b : Nat) :
    Inserted s (placeBetween s i c l₂.head? b) i b (l₁ ++ [c]) l₂ := by
  have hic : i ≠ c := by
    rintro rfl
    exact hi (by simp)
  have hin : l₂.head? ≠ some i := fun h =>
    hi (mem_append_right _ (mem_cons_of_mem c (mem_of_mem_head? h)))
  have hlast : (l₁ ++ [c]).getLast? = some c := getLast?_concat
  have hne : ∀ b ∈ (l₁ ++ [c]) ++ l₂, b ≠ i := by
    rintro b hb rfl
    exact hi (by simpa using hb)
  constructor
  · rw [append_cons] at hd
    have hhead : (placeBetween s i c l₂.head? b).head = s.head := by simp [placeBetween]
    rw [hhead]
    refine hd.insert (by simp) (fun b hb => ?_) (fun b hb => ?_) ?_ ?_
    · rw [placeBetween_next, hlast, if_neg (hne b hb)]
      simp only [some.injEq, eq_comm]
    · rw [placeBetween_prev hin, if_neg (hne b hb)]
    · rw [placeBetween_next, if_neg hic, if_pos rfl]
    · rw [placeBetween_prev hin, if_pos rfl, hlast]
  · exact placeBetween_self s i c _ b
  · exact fun p hp => placeBetween_unlinked hp c _ b

/-- The first area of an empty list. -/
lemma first_inserted (s : AreaList) (i b : Nat) :
    Inserted s { s.assign i fun a => { a with base := b, prev := none, next := none }
      with head := some i } i b [] [] := by
  refine ⟨⟨⟨rfl, ?_⟩, ?_, trivial⟩, ?_, fun q hq => ?_⟩
  · simp [AreaList.next, assign_area]
  · simp [AreaList.prev, assign_area]
  · simp [assign_area, VmArea.unlinked, VmArea.withBase]
  · simp [assign_area, hq]

/-- The base and the size of an area are not part of the links. -/
lemma Inserted.bounds (h : Inserted s s' i p l₁ l₂) :
    (s'.area i).base = p ∧ (s'.area i).size = (s.area i).size ∧
      ∀ q, q ≠ i → (s'.area q).base = (s.area q).base ∧ (s'.area q).size = (s.area q).size :=
  ⟨VmArea.base_of_unlinked h.self, (VmArea.size_of_unlinked h.self).trans rfl, fun q hq =>
    ⟨VmArea.base_of_unlinked (h.others q hq), VmArea.size_of_unlinked (h.others q hq)⟩⟩

/-! ## Lists in some order -/

/-- The areas on the list are `l`. Each range satisfies `P`, and `R` relates it to the
ranges behind it. -/
structure Ordered (P : Nat × Nat → Prop) (R : Nat × Nat → Nat × Nat → Prop) (s : AreaList)
    (l : List Nat) : Prop where
  links : DList s.next s.prev s.head l
  each : ∀ p ∈ l, P (s.area p).range
  pairs : l.Pairwise fun p q => R (s.area p).range (s.area q).range

lemma links_congr (hd : DList s.next s.prev s.head l) (hhead : s'.head = s.head)
    (harea : ∀ p ∈ l, s'.area p = s.area p) : DList s'.next s'.prev s'.head l := by
  rw [hhead]
  refine hd.congr (fun p hp => ?_) (fun p hp => ?_)
  · rw [AreaList.next, harea p hp, AreaList.next]
  · rw [AreaList.prev, harea p hp, AreaList.prev]

lemma Ordered.of_range (h : Ordered P R s l) (hlinks : DList s'.next s'.prev s'.head l₁)
    (hsub : l₁.Sublist l) (hsame : ∀ p ∈ l₁, (s'.area p).range = (s.area p).range) :
    Ordered P R s' l₁ := by
  refine ⟨hlinks, fun p hp => ?_, (h.pairs.sublist hsub).imp_of_mem fun {p q} hp hq hpq => ?_⟩
  · rw [hsame p hp]
    exact h.each p (hsub.subset hp)
  · rw [hsame p hp, hsame q hq]
    exact hpq

lemma Ordered.congr (h : Ordered P R s l) (hhead : s'.head = s.head)
    (harea : ∀ p ∈ l, s'.area p = s.area p) : Ordered P R s' l :=
  h.of_range (links_congr h.links hhead harea) (Sublist.refl l) fun p hp => by rw [harea p hp]

/-- A new area between its two neighbours keeps a transitive order. -/
lemma Inserted.ordered (h : Inserted s s' i p l₁ l₂) (hs : Ordered P R s (l₁ ++ l₂))
    (hi : i ∉ l₁ ++ l₂) (htrans : ∀ a b c, R a b → R b c → R a c) (hnew : P (p, (s.area i).size))
    (hbefore : ∀ q ∈ l₁.getLast?, R (s.area q).range (p, (s.area i).size))
    (hbehind : ∀ q ∈ l₂.head?, R (p, (s.area i).size) (s.area q).range) :
    Ordered P R s' (l₁ ++ i :: l₂) := by
  have hself : (s'.area i).range = (p, (s.area i).size) := VmArea.range_of_unlinked h.self
  have hne : ∀ q ∈ l₁ ++ l₂, q ≠ i := by
    rintro q hq rfl
    exact hi hq
  have hsame : ∀ q ∈ l₁ ++ l₂, (s'.area q).range = (s.area q).range := fun q hq =>
    VmArea.range_of_unlinked (h.others q (hne q hq))
  have hold : (l₁ ++ l₂).Pairwise fun q r => R (s'.area q).range (s'.area r).range := by
    refine hs.pairs.imp_of_mem fun {q r} hq hr hqr => ?_
    rw [hsame q hq, hsame r hr]
    exact hqr
  -- a transitive relation holds along the list when it holds between neighbours
  have : IsTrans Nat fun q r => R (s'.area q).range (s'.area r).range := ⟨fun _ _ _ => htrans _ _ _⟩
  obtain ⟨h1, h2, -⟩ := isChain_append.mp (isChain_iff_pairwise.mpr hold)
  refine ⟨h.links, fun q hq => ?_, isChain_iff_pairwise.mp (isChain_append.mpr
    ⟨h1, isChain_cons.mpr ⟨fun q hq => ?_, h2⟩, fun q hq r hr => ?_⟩)⟩
  · by_cases hqi : q = i
    · rw [hqi, hself]
      exact hnew
    · have hq' : q ∈ l₁ ++ l₂ := by simpa [hqi] using hq
      rw [hsame q hq']
      exact hs.each q hq'
  · rw [hself, hsame q (mem_append_right _ (mem_of_mem_head? hq))]
    exact hbehind q hq
  · cases hr
    rw [hself, hsame q (mem_append_left _ (mem_of_mem_getLast? hq))]
    exact hbefore q hq

lemma sorted_iff : Sorted start s l ↔ Ordered (fun a => 0 < a.2 ∧ a.2 < a.1 ∧ a.1 ≤ start)
    (fun a b => b.1 ≤ a.1 - a.2) s l := by
  refine ⟨fun h => ⟨h.links, fun p hp => ?_, h.below⟩, fun h => ⟨h.links, fun p hp => ?_, h.pairs⟩⟩
  · exact ⟨(h.placed p hp).size_pos, (h.placed p hp).size_lt, (h.placed p hp).base_le⟩
  · exact ⟨(h.each p hp).1, (h.each p hp).2.1, (h.each p hp).2.2⟩

lemma Sorted.congr (hs : Sorted start s l) (hhead : s'.head = s.head)
    (harea : ∀ p ∈ l, s'.area p = s.area p) : Sorted start s' l :=
  sorted_iff.mpr ((sorted_iff.mp hs).congr hhead harea)

/-- The list is in order again when the new area ends above its beginning and above
the next area. -/
lemma Inserted.sorted (h : Inserted s s' i p l₁ l₂) (hs : Sorted start s (l₁ ++ l₂))
    (hi : i ∉ l₁ ++ l₂) (hpos : 0 < (s.area i).size) (hlt : (s.area i).size < p)
    (hle : p ≤ start) (habove : ∀ q ∈ l₁.getLast?, p ≤ (s.area q).low)
    (hbehind : ∀ q ∈ l₂.head?, (s.area q).base + (s.area i).size ≤ p) :
    Sorted start s' (l₁ ++ i :: l₂) := by
  refine sorted_iff.mpr (h.ordered (sorted_iff.mp hs) hi (fun a b c hab hbc => by omega)
    ⟨hpos, hlt, hle⟩ habove fun q hq => ?_)
  have hgap := hbehind q hq
  exact le_sub_of_add_le hgap

/-- A new area is put on the list, and it has no wrap-around exactly when there is
room for it. -/
lemma addToList_spec (hs : Sorted start s l) (hstart : start < 2 ^ 64) (hi : i ∉ l)
    (hn : (s.area i).size < 2 ^ 64) (hfuel : l.length ≤ fuel) :
    ∃ s' b l₁ l₂, addToList start fuel s i = some s' ∧ l = l₁ ++ l₂ ∧ Inserted s s' i b l₁ l₂ ∧
      (s.Room start (s.area i).size l ↔ (s.area i).size < b) ∧
      (s.Room start (s.area i).size l → b = s.place start (s.area i).size l) ∧
      (s.Room start (s.area i).size l → 0 < (s.area i).size → Sorted start s' (l₁ ++ i :: l₂)) := by
  cases l with
  | nil =>
    have hhead : s.head = none := hs.links.chain
    rw [addToList, hhead]
    have hins := first_inserted s i start
    refine ⟨_, start, [], [], rfl, rfl, hins, Iff.rfl, fun _ => rfl, fun hroom hpos => ?_⟩
    exact hins.sorted hs hi hpos hroom le_rfl (by simp) (by simp)
  | cons c l =>
    have hchain := hs.links.chain
    obtain ⟨l₁, p, l₂, hsplit, hfind, hroom, hbehind⟩ := findGap_spec hstart hn
      (show Chain s.next (some c) (c :: l) from ⟨rfl, hchain.2⟩) hs.placed hs.below hfuel
    have hlow : (s.area p).lower = (s.area p).low :=
      (hs.placed p (by rw [hsplit]; simp)).lower_eq hstart
    have hins : Inserted s (insertBetween s i p l₂.head?) i (s.area p).low (l₁ ++ [p]) l₂ := by
      rw [← hlow]
      exact placeBetween_inserted (hsplit ▸ hs.links) (hsplit ▸ hi) _
    rw [addToList, hchain.1]
    refine ⟨_, (s.area p).low, l₁ ++ [p], l₂, by simp only [hfind, map_some],
      by rw [hsplit]; simp, hins, hroom, fun h => (hbehind (hroom.mp h)).1.symm, fun h hpos => ?_⟩
    have hlt := hroom.mp h
    have hs' : Sorted start s ((l₁ ++ [p]) ++ l₂) := by
      rw [← append_cons, ← hsplit]
      exact hs
    have hpl : (s.area p).Placed start := hs'.placed p (by simp)
    refine hins.sorted hs' (by rw [← append_cons, ← hsplit]; exact hi) hpos hlt
      (hpl.low_lt.le.trans hpl.base_le) (fun q hq => ?_) (hbehind hlt).2
    rw [getLast?_concat] at hq
    cases hq
    exact le_rfl

/-! ## Removal -/

lemma removeFromList_unlinked (s : AreaList) (i p : Nat) :
    ((removeFromList s i).area p).unlinked = (s.area p).unlinked := by
  simp only [removeFromList, assign_area, assignAt_area]
  split_ifs <;> rfl

lemma removeFromList_links (hd : DList s.next s.prev s.head (l₁ ++ i :: l₂)) :
    DList (removeFromList s i).next (removeFromList s i).prev (removeFromList s i).head
      (l₁ ++ l₂) := by
  have hprev : s.prev i = l₁.getLast? := by simpa using hd.backed.prev_eq
  have hne : ∀ b ∈ l₁ ++ l₂, b ≠ i := by
    rintro b hb rfl
    have hnd := nodup_middle.mp hd.nodup
    exact (nodup_cons.mp hnd).1 hb
  have hhead : (removeFromList s i).head = if s.prev i = none then s.next i else s.head := by
    have hiff : s.head = some i ↔ s.prev i = none := by
      rw [hprev, hd.chain.head_eq]
      cases l₁ with
      | nil => simp
      | cons c l₁ =>
        have hci := hne c (by simp)
        simp [hci]
    simp [removeFromList, hiff]
  rw [hhead]
  refine hd.unlink (fun b hb => ?_) (fun b hb => ?_)
  · simp only [AreaList.next, removeFromList, assign_area, assignAt_area, if_neg (hne b hb)]
    split_ifs <;> rfl
  · simp only [AreaList.prev, removeFromList, assign_area, assignAt_area, if_neg (hne b hb)]
    split_ifs <;> rfl

lemma Ordered.remove (h : Ordered P R s (l₁ ++ i :: l₂)) :
    Ordered P R (removeFromList s i) (l₁ ++ l₂) :=
  h.of_range (removeFromList_links h.links) ((sublist_cons_self i l₂).append_left l₁)
    fun p _ => VmArea.range_of_unlinked (removeFromList_unlinked s i p)

lemma Sorted.remove (hs : Sorted start s (l₁ ++ i :: l₂)) :
    Sorted start (removeFromList s i) (l₁ ++ l₂) :=
  sorted_iff.mpr (sorted_iff.mp hs).remove

end DestinX.Vm
