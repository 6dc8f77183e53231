import DestinX.Base.Memory
import DestinX.Base.LinkedList

/-!
# Doubly linked lists whose links are words of memory

A node is the address of a record; its links are 64-bit words at fixed offsets, and zero is the
null pointer. The list predicate is `DList` at these fields.
-/

namespace Base

open List

/-- The pointer that a word holds. -/
def ptr (v : Nat) : Option Nat := if v = 0 then none else some v

@[simp] lemma ptr_zero : ptr 0 = none := rfl

@[simp] lemma ptr_eq_none {v : Nat} : ptr v = none ↔ v = 0 := by simp [ptr]

@[simp] lemma ptr_eq_some {v a : Nat} : ptr v = some a ↔ v = a ∧ a ≠ 0 := by
  by_cases hv : v = 0
  · subst hv
    simp only [ptr_zero, reduceCtorEq, false_iff, not_and, not_not]
    exact fun h => h.symm
  · simp only [ptr, if_neg hv, Option.some.injEq]
    constructor
    · rintro rfl
      exact ⟨rfl, hv⟩
    · exact And.left

/-- The link at offset `o` of the record at `a`. -/
def field (m : Mem) (o a : Nat) : Option Nat := ptr (load64 m (a + o))

/-- The records of `l` form a null-terminated doubly linked list with `prev`
links at offset `po` and `next` links at offset `no`. -/
def MList (m : Mem) (po no head : Nat) (l : List Nat) : Prop :=
  DList (field m no) (field m po) (ptr head) l

/-- Records of `sz` bytes at the addresses of `l` do not overlap. -/
def NodesApart (sz : Nat) (l : List Nat) : Prop :=
  ∀ b ∈ l, ∀ c ∈ l, b ≠ c → Apart b sz c sz

/-- A record of `sz` bytes holds two separate words, at the offsets `o` and `o'`. -/
structure LinkWords (sz o o' : Nat) : Prop where
  first : o + 8 ≤ sz
  second : o' + 8 ≤ sz
  apart : Apart o 8 o' 8

variable {m m' : Mem} {po no head a b sz o o' : Nat} {l l1 l2 : List Nat}

lemma LinkWords.symm (hw : LinkWords sz o o') : LinkWords sz o' o :=
  ⟨hw.second, hw.first, Or.symm hw.apart⟩

section

variable (hs : NodesApart sz l)
include hs

lemma load_store_same_word {c v : Nat} (hb : b ∈ l) (hc : c ∈ l) (ho : o + 8 ≤ sz)
    (hv : v < 2 ^ 64) :
    load64 (store64 m (c + o) v) (b + o) = if b = c then v else load64 m (b + o) := by
  by_cases hbc : b = c
  · subst hbc
    rw [if_pos rfl, load64_store64_same hv]
  · have := hs b hb c hc hbc
    simp only [Apart] at this
    rw [if_neg hbc, load64_store64_apart (by simp only [Apart]; omega)]

lemma load_store_other_word {c v : Nat} (hb : b ∈ l) (hc : c ∈ l) (hw : LinkWords sz o o') :
    load64 (store64 m (c + o) v) (b + o') = load64 m (b + o') := by
  apply load64_store64_apart
  have hfirst := hw.first
  have hsecond := hw.second
  have hapart := hw.apart
  by_cases hbc : b = c
  · simp only [Apart] at hapart ⊢
    omega
  · have := hs b hb c hc hbc
    simp only [Apart] at this ⊢
    omega

/-- Both words of one record are written. -/
lemma load_store_words {v w : Nat} (ha : a ∈ l) (hb : b ∈ l) (hw : LinkWords sz o o')
    (hv : v < 2 ^ 64) (hw' : w < 2 ^ 64) :
    load64 (store64 (store64 m (a + o) v) (a + o') w) (b + o) =
      (if b = a then v else load64 m (b + o)) ∧
    load64 (store64 (store64 m (a + o) v) (a + o') w) (b + o') =
      (if b = a then w else load64 m (b + o')) := by
  constructor
  · rw [load_store_other_word hs hb ha hw.symm, load_store_same_word hs hb ha hw.first hv]
  · rw [load_store_same_word hs hb ha hw.second hw', load_store_other_word hs hb ha hw]

/-- A store to a word of a record that is left out for the null pointer. -/
lemma load_cond_store {c v : Nat} (hb : b ∈ l) (hb0 : b ≠ 0) (hc : c = 0 ∨ c ∈ l)
    (hw : LinkWords sz o o') (hv : v < 2 ^ 64) :
    load64 (if c = 0 then m else store64 m (c + o) v) (b + o) =
      (if b = c then v else load64 m (b + o)) ∧
    load64 (if c = 0 then m else store64 m (c + o) v) (b + o') = load64 m (b + o') := by
  by_cases h0 : c = 0
  · simp only [if_pos h0, if_neg (fun h => hb0 (h.trans h0) : ¬ b = c), and_self]
  · have hm := hc.resolve_left h0
    simp only [if_neg h0]
    exact ⟨load_store_same_word hs hb hm hw.first hv, load_store_other_word hs hb hm hw⟩

end

lemma cond_store_outside {c v x : Nat} (hc : c = 0 ∨ c ∈ l)
    (hx : ∀ b ∈ l, x < b + o ∨ b + o + 8 ≤ x) :
    (if c = 0 then m else store64 m (c + o) v) x = m x := by
  by_cases h0 : c = 0
  · rw [if_pos h0]
  · rw [if_neg h0, store64_outside (hx c (hc.resolve_left h0))]

lemma MList.nodup (hl : MList m po no head l) : l.Nodup := DList.nodup hl

lemma MList.head_eq (hl : MList m po no head (a :: l)) : head = a ∧ a ≠ 0 :=
  ptr_eq_some.mp (DList.chain hl).1

section

variable (hl : MList m po no head l)
include hl

lemma MList.nil_iff : head = 0 ↔ l = [] := by
  cases l with
  | nil => simpa using (DList.chain hl).head_eq
  | cons b l =>
    have := MList.head_eq hl
    simp only [reduceCtorEq, iff_false]
    omega

lemma MList.ne_zero (ha : a ∈ l) : a ≠ 0 := by
  have hc : ∀ {h : Option Nat} {l : List Nat}, Chain (field m no) h l →
      (∀ v, h = some v → v ≠ 0) → ∀ b ∈ l, b ≠ 0 := by
    intro h l hc hh b hb
    induction l generalizing h with
    | nil => simp at hb
    | cons c l ih =>
      rcases mem_cons.mp hb with rfl | hb
      · exact hh b hc.1
      · exact ih hc.2 (fun v hv => (ptr_eq_some.mp hv).2) hb
  exact hc (DList.chain hl) (fun v hv => (ptr_eq_some.mp hv).2) a ha

lemma MList.congr (hn : ∀ b ∈ l, load64 m' (b + no) = load64 m (b + no))
    (hp : ∀ b ∈ l, load64 m' (b + po) = load64 m (b + po)) : MList m' po no head l :=
  DList.congr hl (fun b hb => by rw [field, field, hn b hb])
    fun b hb => by rw [field, field, hp b hb]

lemma MList.head_mem : head = 0 ∨ head ∈ l := by
  cases l with
  | nil => exact .inl (hl.nil_iff.mpr rfl)
  | cons b l => exact .inr (by simp [hl.head_eq.1])

end

/-- The word before a node is null or a node of the list before it. -/
lemma MList.prev_mem (hl : MList m po no head (l1 ++ a :: l2)) :
    load64 m (a + po) = 0 ∨ load64 m (a + po) ∈ l1 := by
  have h : ptr (load64 m (a + po)) = l1.getLast? := by simpa [field] using (DList.backed hl).prev_eq
  cases hlast : l1.getLast? with
  | none =>
    rw [hlast] at h
    exact .inl (ptr_eq_none.mp h)
  | some b =>
    rw [hlast] at h
    rw [(ptr_eq_some.mp h).1]
    exact .inr (mem_of_getLast? hlast)

/-- The word after a node is null or a node of the list after it. -/
lemma MList.next_mem (hl : MList m po no head (l1 ++ a :: l2)) :
    load64 m (a + no) = 0 ∨ load64 m (a + no) ∈ l2 := by
  have h : ptr (load64 m (a + no)) = l2.head? := (DList.chain hl).next_eq
  cases hhead : l2.head? with
  | none =>
    rw [hhead] at h
    exact .inl (ptr_eq_none.mp h)
  | some b =>
    rw [hhead] at h
    rw [(ptr_eq_some.mp h).1]
    exact .inr (mem_of_mem_head? hhead)

lemma mem_middle (hb : b ∈ l1 ++ l2) : b ∈ l1 ++ a :: l2 := by
  rcases mem_append.mp hb with h | h
  · exact mem_append_left _ h
  · exact mem_append_right _ (mem_cons_of_mem a h)

/-- A node and its neighbours, as the words of the node name them. -/
lemma MList.neighbours (hl : MList m po no head (l1 ++ a :: l2)) (ho : o = po ∨ o = no) :
    (load64 m (a + o) = 0 ∨ load64 m (a + o) ∈ l1 ++ a :: l2) ∧ load64 m (a + o) ≠ a := by
  have ha : a ≠ 0 := hl.ne_zero (by simp)
  have hnd := nodup_append.mp hl.nodup
  rcases ho with rfl | rfl
  · refine ⟨hl.prev_mem.imp id (mem_append_left _), fun he => ?_⟩
    have hm := hl.prev_mem
    rw [he] at hm
    exact hnd.2.2 _ (hm.resolve_left ha) _ (by simp) rfl
  · refine ⟨hl.next_mem.imp id fun h => mem_append_right _ (mem_cons_of_mem _ h), fun he => ?_⟩
    have hm := hl.next_mem
    rw [he] at hm
    exact (nodup_cons.mp hnd.2.1).1 (hm.resolve_left ha)

/-! ## Insertion -/

/-- A record whose words are null and the head becomes the first one when the old first one is
pointed back to it. -/
lemma MList.pushed (hl : MList m po no head l) (hw : LinkWords sz po no)
    (hs : NodesApart sz (a :: l)) (ha : a ≠ 0) (hal : a ∉ l) (hlt : a < 2 ^ 64)
    (hwords : ∀ b ∈ a :: l, load64 m' (b + po) = (if b = a then 0 else load64 m (b + po)) ∧
      load64 m' (b + no) = (if b = a then head else load64 m (b + no))) :
    MList (if head = 0 then m' else store64 m' (head + po) a) po no a (a :: l) := by
  have hself : ptr a = some a := ptr_eq_some.mpr ⟨rfl, ha⟩
  have hne : ∀ b ∈ l, b ≠ a := fun b hb he => hal (he ▸ hb)
  have hah : a ≠ head := by
    rintro rfl
    exact hal (hl.head_mem.resolve_left ha)
  have h0 : ∀ b ∈ a :: l, b ≠ 0 := by
    intro b hb
    rcases mem_cons.mp hb with rfl | hb
    · exact ha
    · exact hl.ne_zero hb
  have hload := fun b hb => load_cond_store hs hb (h0 b hb)
    (hl.head_mem.imp id (mem_cons_of_mem a)) hw hlt (m := m')
  have hmem : ∀ {b}, b ∈ l → b ∈ a :: l := mem_cons_of_mem a
  rw [MList, hself]
  apply DList.cons hl
  · rw [field, (hload a mem_cons_self).2, (hwords a mem_cons_self).2, if_pos rfl]
  · rw [field, (hload a mem_cons_self).1, if_neg hah, (hwords a mem_cons_self).1, if_pos rfl,
      ptr_zero]
  · intro b hb
    obtain ⟨rfl, hb0⟩ := ptr_eq_some.mp hb
    rw [field, (hload head (hmem (hl.head_mem.resolve_left hb0))).1, if_pos rfl]
    exact hself
  · intro b hb
    rw [field, field, (hload b (hmem hb)).2, (hwords b (hmem hb)).2, if_neg (hne b hb)]
  · intro b hb hbh
    have : b ≠ head := by
      rintro rfl
      exact hbh (ptr_eq_some.mpr ⟨rfl, hl.ne_zero hb⟩)
    rw [field, field, (hload b (hmem hb)).1, if_neg this, (hwords b (hmem hb)).1,
      if_neg (hne b hb)]

/-! ## Removal -/

/-- The neighbour of `a` along its link at `o` takes over the link of `a` at `o'`. -/
def detach (m : Mem) (o o' a : Nat) : Mem :=
  if load64 m (a + o) = 0 then m else store64 m (load64 m (a + o) + o') (load64 m (a + o'))

section

variable (hs : NodesApart sz l) (h0 : ∀ b ∈ l, b ≠ 0)
include hs h0

lemma detach_load (hw : LinkWords sz o o') (hn : load64 m (a + o) = 0 ∨ load64 m (a + o) ∈ l)
    (hb : b ∈ l) : load64 (detach m o o' a) (b + o') =
      (if b = load64 m (a + o) then load64 m (a + o') else load64 m (b + o')) ∧
    load64 (detach m o o' a) (b + o) = load64 m (b + o) :=
  load_cond_store hs hb (h0 _ hb) hn hw.symm (load64_lt _ _)

variable (hw : LinkWords sz o o') (ha : a ∈ l) (hself : load64 m (a + o) ≠ a)
  (hn : load64 m (a + o) = 0 ∨ load64 m (a + o) ∈ l)
include hw ha hself hn

/-- The words of `a` itself are not changed by the first store. -/
lemma detach_load_self : load64 (detach m o o' a) (a + o') = load64 m (a + o') ∧
    load64 (detach m o o' a) (a + o) = load64 m (a + o) := by
  have hown := detach_load hs h0 hw hn ha
  rw [if_neg hself.symm] at hown
  exact hown

variable (hn' : load64 m (a + o') = 0 ∨ load64 m (a + o') ∈ l)
include hn'

/-- Both neighbours of `a` have taken over the link of `a` that leads away from them. -/
lemma detach_twice_load (hb : b ∈ l) : load64 (detach (detach m o o' a) o' o a) (b + o) =
      (if b = load64 m (a + o') then load64 m (a + o) else load64 m (b + o)) ∧
    load64 (detach (detach m o o' a) o' o a) (b + o') =
      (if b = load64 m (a + o) then load64 m (a + o') else load64 m (b + o')) := by
  have hown := detach_load_self hs h0 hw ha hself hn
  have hfirst := detach_load hs h0 hw hn hb
  have hsecond := detach_load hs h0 hw.symm (hown.1.symm ▸ hn') hb
  rw [hown.1, hown.2, hfirst.2] at hsecond
  exact ⟨hsecond.1, hsecond.2.trans hfirst.1⟩

lemma detach_twice_outside {x : Nat}
    (hx : ∀ b ∈ l, (x < b + o ∨ b + o + 8 ≤ x) ∧ (x < b + o' ∨ b + o' + 8 ≤ x)) :
    detach (detach m o o' a) o' o a x = m x := by
  have hown := detach_load_self hs h0 hw ha hself hn
  exact (cond_store_outside (hown.1.symm ▸ hn') fun b hb => (hx b hb).1).trans
    (cond_store_outside hn fun b hb => (hx b hb).2)

end

lemma MList.unlink (hl : MList m po no head (l1 ++ a :: l2))
    (hload : ∀ b ∈ l1 ++ l2, load64 m' (b + po) =
      (if b = load64 m (a + no) then load64 m (a + po) else load64 m (b + po)) ∧
      load64 m' (b + no) =
        (if b = load64 m (a + po) then load64 m (a + no) else load64 m (b + no))) :
    MList m' po no (if load64 m (a + po) = 0 then load64 m (a + no) else head) (l1 ++ l2) := by
  have hne : ∀ b ∈ l1 ++ l2, b ≠ 0 := fun b hb => hl.ne_zero (mem_middle hb)
  have hlink : ∀ {v w u b : Nat}, b ≠ 0 →
      ptr (if b = v then w else u) = if ptr v = some b then ptr w else ptr u := by
    intro v w u b hb
    by_cases he : v = b
    · rw [if_pos he.symm, if_pos (ptr_eq_some.mpr ⟨he, hb⟩)]
    · rw [if_neg fun h => he h.symm, if_neg fun h => he (ptr_eq_some.mp h).1]
  have hd : DList (field m' no) (field m' po)
      (if field m po a = none then field m no a else ptr head) (l1 ++ l2) := DList.unlink hl
    (fun b hb => by rw [field, (hload b hb).2, hlink (hne b hb)]; rfl)
    (fun b hb => by rw [field, (hload b hb).1, hlink (hne b hb)]; rfl)
  have hhead : (if field m po a = none then field m no a else ptr head) =
      ptr (if load64 m (a + po) = 0 then load64 m (a + no) else head) := by
    simp only [field, ptr_eq_none]
    split <;> rfl
  rw [hhead] at hd
  exact hd

/-- Whichever neighbour is served first, the list without the node is left. -/
lemma MList.detached (hl : MList m po no head (l1 ++ a :: l2)) (hw : LinkWords sz po no)
    (hs : NodesApart sz (l1 ++ a :: l2)) (ho : o = po ∧ o' = no ∨ o = no ∧ o' = po) :
    MList (detach (detach m o o' a) o' o a) po no
      (if load64 m (a + po) = 0 then load64 m (a + no) else head) (l1 ++ l2) := by
  have hprev := hl.neighbours (.inl rfl)
  have hnext := hl.neighbours (.inr rfl)
  have h0 : ∀ b ∈ l1 ++ a :: l2, b ≠ 0 := fun b hb => hl.ne_zero hb
  apply hl.unlink
  intro b hb
  rcases ho with ⟨rfl, rfl⟩ | ⟨rfl, rfl⟩
  · exact detach_twice_load hs h0 hw (by simp) hprev.2 hprev.1 hnext.1 (mem_middle hb)
  · exact (detach_twice_load hs h0 hw.symm (by simp) hnext.2 hnext.1 hprev.1 (mem_middle hb)).symm

end Base
