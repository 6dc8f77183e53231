import Mathlib.Data.List.Nodup

/-!
# Intrusive linked lists over pointer fields

Nodes have type `α`, a pointer is `Option α` and `none` is the null pointer. A field is a
function from nodes to pointers, so the same statements serve a record store and words read from
raw memory. The update lemmas ask for the new field only at the nodes of the list, which is what
a frame condition supplies.
-/

namespace Base

open List

variable {α : Type*}

/-- Following `next` from the head pointer visits exactly `l` and then null. -/
def Chain (next : α → Option α) : Option α → List α → Prop
  | h, [] => h = none
  | h, a :: l => h = some a ∧ Chain next (next a) l

/-- Every node of `l` points back to the node before it, the first one to `p`. -/
def Backed (prev : α → Option α) : Option α → List α → Prop
  | _, [] => True
  | p, a :: l => prev a = p ∧ Backed prev (some a) l

/-- A null-terminated doubly linked list with head pointer `h`. -/
structure DList (next prev : α → Option α) (h : Option α) (l : List α) : Prop where
  chain : Chain next h l
  backed : Backed prev none l

variable {next next' prev prev' : α → Option α} {h p : Option α} {a b : α} {l l1 l2 : List α}

@[simp] lemma chain_nil : Chain next h [] ↔ h = none := Iff.rfl

@[simp] lemma chain_cons : Chain next h (a :: l) ↔ h = some a ∧ Chain next (next a) l := Iff.rfl

lemma Chain.head_eq (hc : Chain next h l) : h = l.head? := by
  cases l with
  | nil => exact hc
  | cons a l => exact hc.1

lemma Chain.congr (hc : Chain next h l) (he : ∀ a ∈ l, next' a = next a) : Chain next' h l := by
  induction l generalizing h with
  | nil => exact hc
  | cons a l ih =>
    refine ⟨hc.1, ?_⟩
    rw [he a (by simp)]
    exact ih hc.2 fun b hb => he b (by simp [hb])

lemma Backed.congr (hb : Backed prev p l) (he : ∀ a ∈ l, prev' a = prev a) :
    Backed prev' p l := by
  induction l generalizing p with
  | nil => trivial
  | cons a l ih =>
    refine ⟨(he a (by simp)).trans hb.1, ?_⟩
    exact ih hb.2 fun b hb => he b (by simp [hb])

lemma DList.congr (hd : DList next prev h l) (hn : ∀ a ∈ l, next' a = next a)
    (hp : ∀ a ∈ l, prev' a = prev a) : DList next' prev' h l :=
  ⟨hd.chain.congr hn, hd.backed.congr hp⟩

/-- The head pointer and the field determine the list. -/
lemma Chain.unique (hc : Chain next h l1) (hc' : Chain next h l2) : l1 = l2 := by
  induction l1 generalizing h l2 with
  | nil =>
    cases l2 with
    | nil => rfl
    | cons b l2 =>
      have hnone : h = none := hc
      simp [hnone] at hc'
  | cons a l1 ih =>
    cases l2 with
    | nil =>
      have hnone : h = none := hc'
      simp [hnone] at hc
    | cons b l2 =>
      obtain rfl : a = b := Option.some.inj (hc.1.symm.trans hc'.1)
      rw [ih hc.2 hc'.2]

lemma Chain.suffix (hc : Chain next h (l1 ++ a :: l2)) : Chain next (some a) (a :: l2) := by
  induction l1 generalizing h with
  | nil => exact ⟨rfl, hc.2⟩
  | cons b l1 ih => exact ih hc.2

/-- A chain that ends in null cannot visit a node twice. -/
lemma Chain.nodup (hc : Chain next h l) : l.Nodup := by
  induction l generalizing h with
  | nil => simp
  | cons a l ih =>
    refine nodup_cons.mpr ⟨?_, ih hc.2⟩
    intro ha
    obtain ⟨l1, l2, hl⟩ := append_of_mem ha
    have hsuf : Chain next (some a) (a :: l2) :=
      Chain.suffix (show Chain next (next a) (l1 ++ a :: l2) from hl ▸ hc.2)
    have heq := (show Chain next (some a) (a :: l) from ⟨rfl, hc.2⟩).unique hsuf
    have hlen := congrArg List.length heq
    simp only [hl, length_cons, length_append] at hlen
    omega

lemma Chain.next_eq (hc : Chain next h (l1 ++ a :: l2)) : next a = l2.head? :=
  hc.suffix.2.head_eq

lemma Chain.mem_of_head (hc : Chain next h l) (hh : h = some a) : a ∈ l :=
  mem_of_mem_head? (hc.head_eq ▸ hh)

lemma Chain.next_mem (hc : Chain next h l) (ha : a ∈ l) (hb : next a = some b) : b ∈ l := by
  obtain ⟨l1, l2, rfl⟩ := append_of_mem ha
  have hb' : b ∈ l2 := mem_of_mem_head? (hc.next_eq ▸ hb)
  exact mem_append_right _ (mem_cons_of_mem a hb')

lemma Backed.prev_eq (hb : Backed prev p (l1 ++ a :: l2)) : prev a = l1.getLast?.or p := by
  induction l1 generalizing p with
  | nil => simpa using hb.1
  | cons b l1 ih =>
    rw [ih hb.2]
    cases hl : l1.getLast? with
    | none => simp [getLast?_eq_none_iff.mp hl]
    | some c => simp [getLast?_cons, hl]

lemma DList.nodup (hd : DList next prev h l) : l.Nodup := hd.chain.nodup

/-- Insertion at the head: only the new node and the back pointer of the old
head change. -/
lemma DList.cons (hd : DList next prev h l) (hn : next' a = h) (hp : prev' a = none)
    (hh : ∀ b, h = some b → prev' b = some a) (fn : ∀ b ∈ l, next' b = next b)
    (fp : ∀ b ∈ l, h ≠ some b → prev' b = prev b) : DList next' prev' (some a) (a :: l) := by
  refine ⟨⟨rfl, ?_⟩, hp, ?_⟩
  · rw [hn]
    exact hd.chain.congr fn
  · cases l with
    | nil => trivial
    | cons b l =>
      have hnd := hd.nodup
      refine ⟨hh b hd.chain.1, hd.backed.2.congr ?_⟩
      intro c hc
      apply fp c (by simp [hc])
      rw [hd.chain.1]
      rintro ⟨⟩
      exact (nodup_cons.mp hnd).1 hc

section Unlink

variable [DecidableEq α]

private lemma Chain.remove (hc : Chain next h (l1 ++ a :: l2))
    (hn : ∀ b ∈ l1 ++ l2, next' b = if l1.getLast? = some b then next a else next b) :
    Chain next' (if l1 = [] then next a else h) (l1 ++ l2) := by
  induction l1 generalizing h with
  | nil =>
    exact hc.2.congr fun b hb => by simpa using hn b (by simpa using hb)
  | cons c l1 ih =>
    have hnd := hc.nodup
    have hcmem : c ∉ l1 ++ a :: l2 := (nodup_cons.mp hnd).1
    refine ⟨by simpa using hc.1, ?_⟩
    have hrest : ∀ b ∈ l1 ++ l2, next' b = if l1.getLast? = some b then next a else next b := by
      intro b hb
      rw [hn b (mem_cons_of_mem c hb)]
      cases l1 with
      | nil =>
        have : c ≠ b := by rintro rfl; exact hcmem (by simpa using .inr hb)
        simp [this]
      | cons d l1 => simp [getLast?_cons_cons]
    have htail := ih hc.2 hrest
    have hself : next' c = if l1 = [] then next a else next c := by
      rw [hn c (by simp)]
      cases l1 with
      | nil => simp
      | cons d l1 =>
        have : (c :: d :: l1).getLast? ≠ some c := by
          intro hlast
          exact hcmem (mem_append_left _ (mem_of_getLast? hlast))
        rw [if_neg this, if_neg (by simp)]
    rw [hself]
    exact htail

private lemma Backed.remove (hb : Backed prev p (l1 ++ a :: l2)) (hnd : (l1 ++ a :: l2).Nodup)
    (hp : ∀ b ∈ l1 ++ l2, prev' b = if l2.head? = some b then prev a else prev b) :
    Backed prev' p (l1 ++ l2) := by
  induction l1 generalizing p with
  | nil =>
    cases l2 with
    | nil => trivial
    | cons c l2 =>
      refine ⟨?_, ?_⟩
      · rw [hp c (by simp), if_pos (by simp)]
        exact hb.1
      · refine hb.2.2.congr fun b hm => ?_
        have hne : c ≠ b := by
          rintro rfl
          have := (nodup_cons.mp hnd).2
          exact (nodup_cons.mp this).1 hm
        rw [hp b (by simp [hm]), if_neg (by simpa using hne)]
  | cons c l1 ih =>
    have hnd' := nodup_cons.mp hnd
    refine ⟨?_, ih hb.2 hnd'.2 fun b hm => hp b (mem_cons_of_mem c hm)⟩
    have hne : l2.head? ≠ some c := by
      intro hh
      exact hnd'.1 (by simp [mem_of_mem_head? hh])
    rw [hp c (by simp), if_neg hne]
    exact hb.1

/-- Unlinking a node: its predecessor takes its `next` pointer (or the head
does), its successor takes its `prev` pointer. -/
lemma DList.unlink (hd : DList next prev h (l1 ++ a :: l2))
    (hn : ∀ b ∈ l1 ++ l2, next' b = if prev a = some b then next a else next b)
    (hp : ∀ b ∈ l1 ++ l2, prev' b = if next a = some b then prev a else prev b) :
    DList next' prev' (if prev a = none then next a else h) (l1 ++ l2) := by
  have hprev : prev a = l1.getLast? := by simpa using hd.backed.prev_eq
  have hnext : next a = l2.head? := hd.chain.next_eq
  constructor
  · have hc : Chain next' (if l1 = [] then next a else h) (l1 ++ l2) :=
      hd.chain.remove (by simpa only [hprev] using hn)
    rw [hprev]
    simpa only [getLast?_eq_none_iff] using hc
  · exact hd.backed.remove hd.nodup (by simpa only [hnext] using hp)

end Unlink

section Insert

variable [DecidableEq α]

private lemma Chain.insert (hc : Chain next h (l1 ++ l2)) (hl : l1 ≠ [])
    (hn : ∀ b ∈ l1 ++ l2, next' b = if l1.getLast? = some b then some a else next b)
    (ha : next' a = l2.head?) : Chain next' h (l1 ++ a :: l2) := by
  induction l1 generalizing h with
  | nil => exact absurd rfl hl
  | cons c l1 ih =>
    have hcmem : c ∉ l1 ++ l2 := (nodup_cons.mp hc.nodup).1
    refine ⟨hc.1, ?_⟩
    cases l1 with
    | nil =>
      rw [hn c (by simp), if_pos (by simp)]
      refine ⟨rfl, ?_⟩
      have htail : Chain next (next c) l2 := hc.2
      rw [ha, ← htail.head_eq]
      refine htail.congr fun b hb => ?_
      rw [hn b (mem_cons_of_mem c hb), if_neg]
      rintro ⟨⟩
      exact hcmem hb
    | cons d l1 =>
      have hne : (c :: d :: l1).getLast? ≠ some c := by
        intro hlast
        exact hcmem (mem_append_left _ (mem_of_getLast? hlast))
      rw [hn c (by simp), if_neg hne]
      refine ih hc.2 (by simp) fun b hb => ?_
      rw [hn b (mem_cons_of_mem c hb), getLast?_cons_cons]

private lemma Backed.insert (hb : Backed prev p (l1 ++ l2)) (hnd : (l1 ++ l2).Nodup)
    (hp : ∀ b ∈ l1 ++ l2, prev' b = if l2.head? = some b then some a else prev b)
    (ha : prev' a = l1.getLast?.or p) : Backed prev' p (l1 ++ a :: l2) := by
  induction l1 generalizing p with
  | nil =>
    refine ⟨by simpa using ha, ?_⟩
    cases l2 with
    | nil => trivial
    | cons c l2 =>
      refine ⟨by rw [hp c (by simp), if_pos (by simp)], hb.2.congr fun b hm => ?_⟩
      rw [hp b (by simp [hm]), if_neg]
      rintro ⟨⟩
      exact (nodup_cons.mp hnd).1 hm
  | cons c l1 ih =>
    have hnd' := nodup_cons.mp hnd
    refine ⟨?_, ih hb.2 hnd'.2 (fun b hm => hp b (mem_cons_of_mem c hm)) ?_⟩
    · rw [hp c (by simp), if_neg]
      · exact hb.1
      · intro hh
        exact hnd'.1 (mem_append_right _ (mem_of_mem_head? hh))
    · rw [ha]
      cases l1 with
      | nil => rfl
      | cons d l1 => simp [getLast?_cons]

/-- Insertion behind a node: only the new node and its neighbours change. -/
lemma DList.insert (hd : DList next prev h (l1 ++ l2)) (hl : l1 ≠ [])
    (hn : ∀ b ∈ l1 ++ l2, next' b = if l1.getLast? = some b then some a else next b)
    (hp : ∀ b ∈ l1 ++ l2, prev' b = if l2.head? = some b then some a else prev b)
    (hna : next' a = l2.head?) (hpa : prev' a = l1.getLast?) :
    DList next' prev' h (l1 ++ a :: l2) :=
  ⟨hd.chain.insert hl hn hna, hd.backed.insert hd.nodup hp (by rw [hpa, Option.or_none])⟩

end Insert

/-- The elements `f i, …, f (n - 1)`, each linked to the one after it. -/
lemma chain_range {f : Nat → α} {n : Nat}
    (hn : ∀ j < n, next (f j) = if j + 1 < n then some (f (j + 1)) else none) :
    ∀ d i, i + d = n → Chain next (if i < n then some (f i) else none)
      ((List.range' i d).map f) := by
  intro d
  induction d with
  | zero =>
    intro i hi
    rw [if_neg (by omega)]
    exact rfl
  | succ d ih =>
    intro i hi
    have hlt : i < n := by omega
    rw [if_pos hlt]
    refine ⟨rfl, ?_⟩
    rw [hn i hlt]
    exact ih (i + 1) (by omega)

lemma Chain.snoc (hc : Chain next h l) (hl : l ≠ []) (ha : a ∉ l) (hnull : next' a = none)
    (hlast : ∀ b, l.getLast? = some b → next' b = some a)
    (fn : ∀ b ∈ l, l.getLast? ≠ some b → next' b = next b) : Chain next' h (l ++ [a]) := by
  induction l generalizing h with
  | nil => exact absurd rfl hl
  | cons b l ih =>
    refine ⟨hc.1, ?_⟩
    cases l with
    | nil =>
      rw [hlast b rfl]
      exact ⟨rfl, hnull⟩
    | cons c l =>
      have hne : (b :: c :: l).getLast? ≠ some b := fun hh =>
        (nodup_cons.mp hc.nodup).1 (mem_of_getLast? hh)
      rw [fn b (by simp) hne]
      exact ih hc.2 (cons_ne_nil c l) (fun hm => ha (mem_cons_of_mem b hm))
        (fun d hd => hlast d (by rw [getLast?_cons_cons]; exact hd))
        (fun d hd hd' => fn d (mem_cons_of_mem b hd) (by rw [getLast?_cons_cons]; exact hd'))

/-- Node `a` is met when `next` is followed from the pointer `h`. -/
inductive Reaches (next : α → Option α) : Option α → α → Prop
  | here {a : α} : Reaches next (some a) a
  | there {b a : α} (h : Reaches next (next b) a) : Reaches next (some b) a

lemma Chain.reaches_iff (hc : Chain next h l) : Reaches next h a ↔ a ∈ l := by
  induction l generalizing h with
  | nil =>
    have hnone : h = none := hc
    subst hnone
    constructor
    · intro hr
      cases hr
    · simp
  | cons b l ih =>
    obtain ⟨rfl, htail⟩ := hc
    constructor
    · intro hr
      cases hr with
      | here => simp
      | there hr => exact mem_cons_of_mem b ((ih htail).mp hr)
    · intro hm
      rcases mem_cons.mp hm with rfl | hm
      · exact .here
      · exact .there ((ih htail).mpr hm)

end Base
