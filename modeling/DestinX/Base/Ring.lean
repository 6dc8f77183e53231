import Mathlib.Data.List.Cycle
import DestinX.Base.LinkedList

/-!
# Circular doubly linked lists over pointer fields

`Ring next prev l` says that the fields link the nodes of `l` into a circle in the order of the
list. Where the circle starts does not matter, so adding and removing a node is proved at the
first position and moved elsewhere by rotation.
-/

namespace Base

open List Option

variable {α : Type*}

/-- Node `b` follows node `a`. -/
def Linked (next prev : α → Option α) (a b : α) : Prop := next a = some b ∧ prev b = some a

structure Ring (next prev : α → Option α) (l : List α) : Prop where
  links : Cycle.Chain (Linked next prev) (l : Cycle α)
  nodup : l.Nodup

variable {next next' prev prev' : α → Option α} {a b t : α} {l l1 l2 : List α}

lemma ring_nil : Ring next prev ([] : List α) := ⟨Cycle.Chain.nil _, nodup_nil⟩

lemma ring_cons : Ring next prev (a :: l) ↔
      (a :: (l ++ [a])).IsChain (Linked next prev) ∧ (a :: l).Nodup :=
  ⟨fun h => ⟨h.links, h.nodup⟩, fun h => ⟨h.1, h.2⟩⟩

lemma ring_singleton (hn : next a = some a) (hp : prev a = some a) : Ring next prev [a] :=
  ring_cons.mpr ⟨isChain_pair.mpr ⟨hn, hp⟩, nodup_singleton a⟩

lemma Ring.rotate (h : Ring next prev (l1 ++ l2)) : Ring next prev (l2 ++ l1) := by
  have hrot : (l1 ++ l2).IsRotated (l2 ++ l1) := isRotated_append
  exact ⟨Cycle.coe_eq_coe.mpr hrot ▸ h.links, hrot.nodup_iff.mp h.nodup⟩

lemma Ring.congr (h : Ring next prev l) (hn : ∀ a ∈ l, next' a = next a)
    (hp : ∀ a ∈ l, prev' a = prev a) : Ring next' prev' l := by
  cases l with
  | nil => exact ring_nil
  | cons a l =>
    obtain ⟨hc, hnd⟩ := ring_cons.mp h
    refine ring_cons.mpr ⟨hc.imp_of_mem_imp fun x y hx hy hxy => ?_, hnd⟩
    have hmem : ∀ {z}, z ∈ a :: (l ++ [a]) → z ∈ a :: l := by simp; tauto
    exact ⟨(hn x (hmem hx)).trans hxy.1, (hp y (hmem hy)).trans hxy.2⟩

/-! ## Neighbours -/

lemma Ring.next_head (h : Ring next prev (a :: l)) : next a = (l ++ [a]).head? := by
  obtain ⟨hc, -⟩ := ring_cons.mp h
  cases l with
  | nil => exact (isChain_pair.mp hc).1
  | cons b l => exact (hc.rel_head? (y := b) rfl).1

lemma Ring.next_eq (h : Ring next prev (l1 ++ a :: l2)) :
    next a = (l2 ++ l1 ++ [a]).head? := h.rotate.next_head

lemma Ring.prev_head (h : Ring next prev (a :: l)) : prev a = (a :: l).getLast? := by
  obtain ⟨hc, -⟩ := ring_cons.mp h
  obtain ⟨z, hz⟩ := ne_none_iff_exists'.mp (show (a :: l).getLast? ≠ none by simp)
  rw [hz]
  exact ((isChain_append.mp (show ((a :: l) ++ [a]).IsChain _ from hc)).2.2 z hz a rfl).2

section

variable (h : Ring next prev l)
include h

/-- The other nodes of a circle, from the one after `a` on. -/
lemma Ring.others (ha : a ∈ l) :
    ∃ m, Ring next prev (a :: m) ∧ (∀ b, b ∈ m → b ∈ l ∧ b ≠ a) ∧ (m = [] → l = [a]) := by
  obtain ⟨l1, l2, rfl⟩ := append_of_mem ha
  have hrot : Ring next prev (a :: (l2 ++ l1)) := h.rotate
  refine ⟨l2 ++ l1, hrot, fun b hb => ⟨?_, ?_⟩, fun hm => ?_⟩
  · simp only [mem_append, mem_cons] at hb ⊢
    tauto
  · rintro rfl
    exact (nodup_cons.mp hrot.nodup).1 hb
  · obtain ⟨rfl, rfl⟩ := append_eq_nil_iff.mp hm
    rfl

/-- The successor of a node is in the circle, and is another node unless the node
is alone. -/
lemma Ring.next_mem (ha : a ∈ l) : ∃ b ∈ l, next a = some b ∧ (b = a ↔ l = [a]) := by
  obtain ⟨m, hrot, hm, hnil⟩ := h.others ha
  have hn := hrot.next_head
  cases m with
  | nil => exact ⟨a, ha, hn, iff_of_true rfl (hnil rfl)⟩
  | cons b m =>
    obtain ⟨hb, hne⟩ := hm b mem_cons_self
    exact ⟨b, hb, hn, iff_of_false hne fun hone => hne (by rw [hone] at hb; simpa using hb)⟩

lemma Ring.prev_mem (ha : a ∈ l) : ∃ b ∈ l, prev a = some b ∧ (b = a ↔ l = [a]) := by
  obtain ⟨m, hrot, hm, hnil⟩ := h.others ha
  have hp := hrot.prev_head
  cases m with
  | nil => exact ⟨a, ha, hp, iff_of_true rfl (hnil rfl)⟩
  | cons c m =>
    obtain ⟨b, hlast⟩ := ne_none_iff_exists'.mp (show (c :: m).getLast? ≠ none by simp)
    obtain ⟨hb, hne⟩ := hm b (mem_of_getLast? hlast)
    rw [getLast?_cons_cons, hlast] at hp
    exact ⟨b, hb, hp, iff_of_false hne fun hone => hne (by rw [hone] at hb; simpa using hb)⟩

/-- Following `next` never leaves the circle. -/
lemma Ring.mem_of_reaches {p : Option α} (hr : Reaches next p b) (hp : ∀ a, p = some a → a ∈ l) :
    b ∈ l := by
  induction hr with
  | here => exact hp _ rfl
  | @there a _ _ ih =>
    obtain ⟨z, hz, hn, -⟩ := h.next_mem (hp a rfl)
    exact ih fun y hy => some.inj (hn.symm.trans hy) ▸ hz

/-- Every node of the circle is met on the way from its first one. -/
lemma Ring.reaches (hb : b ∈ l) : Reaches next l.head? b := by
  obtain ⟨l1, l2, rfl⟩ := append_of_mem hb
  have hmeet : ∀ (l1 : List α) (m : List α),
      (l1 ++ b :: m).IsChain (Linked next prev) → Reaches next (l1 ++ b :: m).head? b := by
    intro l1
    induction l1 with
    | nil => exact fun m _ => .here
    | cons a l1 ih =>
      intro m hc
      rw [cons_append, isChain_cons] at hc
      refine .there ?_
      obtain ⟨z, hz⟩ := ne_none_iff_exists'.mp (show (l1 ++ b :: m).head? ≠ none by simp)
      rw [(hc.1 z hz).1, ← hz]
      exact ih m hc.2
  cases l1 with
  | nil => exact .here
  | cons a l1 =>
    have hc := (ring_cons.mp h).1
    have hreach := hmeet (a :: l1) (l2 ++ [a]) (by simpa using hc)
    simpa using hreach

end

/-! ## Adding and removing a node -/

section Update

variable [DecidableEq α]

lemma Ring.snoc (h : Ring next prev (a :: l)) (ht : t ∉ a :: l) (hnt : next' t = some a)
    (hpt : prev' t = prev a)
    (hn : ∀ b ∈ a :: l, next' b = if prev a = some b then some t else next b)
    (hp : ∀ b ∈ a :: l, prev' b = if b = a then some t else prev b) :
    Ring next' prev' (a :: l ++ [t]) := by
  suffices hcons : Ring next' prev' (t :: a :: l) from
    (show Ring next' prev' ([t] ++ (a :: l)) from hcons).rotate
  obtain ⟨hc, hnd⟩ := ring_cons.mp h
  obtain ⟨hopen, -, hclose⟩ :=
    isChain_append.mp (show ((a :: l) ++ [a]).IsChain (Linked next prev) from hc)
  obtain ⟨z, hz⟩ := ne_none_iff_exists'.mp (show (a :: l).getLast? ≠ none by simp)
  have hza : Linked next prev z a := hclose z hz a rfl
  have hzm : z ∈ a :: l := mem_of_getLast? hz
  refine ring_cons.mpr ⟨?_, nodup_cons.mpr ⟨ht, hnd⟩⟩
  refine List.IsChain.cons ?_ (by
    rintro y ⟨⟩
    exact ⟨hnt, by rw [hp a mem_cons_self, if_pos rfl]⟩)
  refine List.IsChain.append (hopen.imp_of_mem_tail_imp fun x y hx hy hxy => ?_)
    (isChain_singleton t) ?_
  · -- the link from the last to the first node is the only one that is cut
    have hya : y ≠ a := fun hya => (nodup_cons.mp hnd).1 (hya ▸ hy)
    have hxz : prev a ≠ some x := by
      intro hpx
      obtain rfl : z = x := some.inj (hza.2.symm.trans hpx)
      exact hya (some.inj (hxy.1.symm.trans hza.1))
    refine ⟨?_, ?_⟩
    · rw [hn x hx, if_neg hxz, hxy.1]
    · rw [hp y (mem_of_mem_tail hy), if_neg hya, hxy.2]
  · rintro x hx y ⟨⟩
    obtain rfl : z = x := some.inj (hz.symm.trans hx)
    exact ⟨by rw [hn z hzm, if_pos hza.2], hpt.trans hza.2⟩

/-- The first node of a circle of two or more is taken out. -/
lemma Ring.tail (h : Ring next prev (t :: a :: l))
    (hn : ∀ b ∈ a :: l, next' b = if prev t = some b then next t else next b)
    (hp : ∀ b ∈ a :: l, prev' b = if next t = some b then prev t else prev b) :
    Ring next' prev' (a :: l) := by
  obtain ⟨hc, hnd⟩ := ring_cons.mp h
  obtain ⟨ht, hnd'⟩ := nodup_cons.mp hnd
  have hta : Linked next prev t a := hc.rel_head? rfl
  obtain ⟨hopen, -, hclose⟩ :=
    isChain_append.mp (show ((a :: l) ++ [t]).IsChain (Linked next prev) from hc.tail)
  obtain ⟨z, hz⟩ := ne_none_iff_exists'.mp (show (a :: l).getLast? ≠ none by simp)
  have hzt : Linked next prev z t := hclose z hz t rfl
  refine ring_cons.mpr ⟨?_, hnd'⟩
  refine List.IsChain.append (hopen.imp_of_mem_imp fun x y hx hy hxy => ?_) (isChain_singleton a) ?_
  · have hyt : y ≠ t := fun hyt => ht (hyt ▸ hy)
    have hxt : x ≠ t := fun hxt => ht (hxt ▸ hx)
    refine ⟨?_, ?_⟩
    · rw [hn x hx, if_neg, hxy.1]
      intro hpx
      obtain rfl : z = x := some.inj (hzt.2.symm.trans hpx)
      exact hyt (some.inj (hxy.1.symm.trans hzt.1))
    · rw [hp y hy, if_neg, hxy.2]
      intro hny
      obtain rfl : a = y := some.inj (hta.1.symm.trans hny)
      exact hxt (some.inj (hxy.2.symm.trans hta.2))
  · rintro x hx y ⟨⟩
    obtain rfl : z = x := some.inj (hz.symm.trans hx)
    refine ⟨?_, ?_⟩
    · rw [hn z (mem_of_getLast? hz), if_pos hzt.2, hta.1]
    · rw [hp a mem_cons_self, if_pos hta.1, hzt.2]

/-- Any node of a circle of two or more is taken out. -/
lemma Ring.erase (h : Ring next prev l) (ht : t ∈ l) (hlen : l ≠ [t])
    (hn : ∀ b ∈ l, b ≠ t → next' b = if prev t = some b then next t else next b)
    (hp : ∀ b ∈ l, b ≠ t → prev' b = if next t = some b then prev t else prev b) :
    Ring next' prev' (l.erase t) := by
  obtain ⟨l1, l2, hmem, rfl, he⟩ := exists_erase_eq ht
  rw [he]
  have hrot : Ring next prev (t :: (l2 ++ l1)) := h.rotate
  have ht' : t ∉ l2 ++ l1 := (nodup_cons.mp hrot.nodup).1
  have hmem' : ∀ {b}, b ∈ l2 ++ l1 → b ∈ l1 ++ t :: l2 ∧ b ≠ t := by
    intro b hb
    refine ⟨?_, fun hbt => ht' (hbt ▸ hb)⟩
    simp only [mem_append, mem_cons] at hb ⊢
    tauto
  apply Ring.rotate
  cases hl : l2 ++ l1 with
  | nil =>
    obtain ⟨rfl, rfl⟩ := append_eq_nil_iff.mp hl
    exact absurd rfl hlen
  | cons a l =>
    rw [hl] at hrot hmem'
    exact hrot.tail (fun b hb => hn b (hmem' hb).1 (hmem' hb).2)
      (fun b hb => hp b (hmem' hb).1 (hmem' hb).2)

end Update

/-! ## One circle for each start -/

/-- The next node is not one of those that were passed. -/
lemma Ring.head_ne (h : Ring next prev (l1 ++ a :: b :: l)) : (l1 ++ [a]).head? ≠ some b := by
  intro hb
  have hnd := h.nodup
  rw [append_cons] at hnd
  exact disjoint_of_nodup_append hnd (mem_of_mem_head? hb) mem_cons_self

lemma Ring.behind_unique {l2' : List α} (h : Ring next prev (l1 ++ a :: l2))
    (h' : Ring next prev (l1 ++ a :: l2')) : l2 = l2' := by
  induction l2 generalizing l1 a l2' with
  | nil =>
    cases l2' with
    | nil => rfl
    | cons b m => exact absurd (h.next_eq.symm.trans h'.next_eq) h'.head_ne
  | cons b m ih =>
    cases l2' with
    | nil => exact absurd (h'.next_eq.symm.trans h.next_eq) h.head_ne
    | cons b' m' =>
      obtain rfl : b = b' := some_inj.mp (h.next_eq.symm.trans h'.next_eq)
      rw [append_cons] at h h'
      rw [ih h h']

/-- Two circles through the same links that start at the same node are the same. -/
lemma Ring.unique (h : Ring next prev l1) (h' : Ring next prev l2)
    (hhead : l1.head? = l2.head?) : l1 = l2 := by
  cases l1 with
  | nil =>
    cases l2 with
    | nil => rfl
    | cons b m => cases hhead
  | cons a l =>
    cases l2 with
    | nil => cases hhead
    | cons b m =>
      obtain rfl : a = b := some_inj.mp hhead
      rw [← nil_append (a :: m)] at h'
      rw [Ring.behind_unique h h']

end Base
