import DestinX.Paging.Forest

/-!
# Tables in use

A table is in use when the processor can reach it from the root of an address space. In a
forest, the tables in use are the owned ones. A translation only depends on their entries.
-/

namespace DestinX.Paging

open Base Nat

/-- An entry that leads to a table of the next level. -/
def IsLink (e : Nat) : Prop := e.testBit 0 = true ∧ e.testBit 7 = false

/-- The tables of each level that are reached through the entries `half` of `pml4`. -/
inductive TableBehind (m : Mem) (half : Set Nat) (pml4 : Nat) : Nat → Nat → Prop
  | top {i : Nat} (hi : i < 512) (hh : i ∈ half) (he : IsLink (entry m pml4 i)) :
      TableBehind m half pml4 3 (pteTarget (entry m pml4 i))
  | down {l t i : Nat} (ht : TableBehind m half pml4 (l + 1) t) (hl : 1 ≤ l) (hi : i < 512)
      (he : IsLink (entry m t i)) : TableBehind m half pml4 l (pteTarget (entry m t i))

variable {bound : Nat} {spaces reserved half : Set Nat} {m m' : Mem} {own : Owner}
  {r r' l n t vaddr : Nat}

lemma TableBehind.level (h : TableBehind m half r l t) : 1 ≤ l ∧ l ≤ 3 := by
  induction h with
  | top => omega
  | down _ hl _ _ ih => omega

lemma pteTarget_aligned (e : Nat) : 2 ^ 12 ∣ pteTarget e := Dvd.intro_left _ rfl

lemma TableBehind.aligned (h : TableBehind m half r l t) : 2 ^ 12 ∣ t := by
  cases h with
  | top => exact pteTarget_aligned _
  | down => exact pteTarget_aligned _

/-- Reachability is the same in two memories that agree on the roots and on every
table reached in the first. -/
lemma TableBehind.congr (hroot : ∀ i < 512, i ∈ half → entry m' r' i = entry m r i)
    (hsame : ∀ l t i, TableBehind m half r l t → i < 512 → entry m' t i = entry m t i) :
    TableBehind m' half r' l t ↔ TableBehind m half r l t := by
  constructor
  · intro h
    induction h with
    | top hi hh he =>
      rw [hroot _ hi hh] at he ⊢
      exact TableBehind.top hi hh he
    | down _ hl hi he ih =>
      rw [hsame _ _ _ ih hi] at he ⊢
      exact TableBehind.down ih hl hi he
  · intro h
    induction h with
    | top hi hh he =>
      rw [← hroot _ hi hh] at he ⊢
      exact TableBehind.top hi hh he
    | down ht hl hi he ih =>
      rw [← hsame _ _ _ ht hi] at he ⊢
      exact TableBehind.down ih hl hi he

lemma TableBehind.mono {half' : Set Nat} (hsub : half ⊆ half') (h : TableBehind m half r l t) :
    TableBehind m half' r l t := by
  induction h with
  | top hi hh he => exact TableBehind.top hi (hsub hh) he
  | down _ hl hi he ih => exact TableBehind.down ih hl hi he

lemma not_isLink_zero : ¬ IsLink 0 := by simp [IsLink]

lemma not_tableBehind_of_empty (hzero : ∀ i < 512, entry m r i = 0) :
    ¬ TableBehind m half r l t := by
  intro h
  induction h with
  | top hi _ he => exact not_isLink_zero (hzero _ hi ▸ he)
  | down _ _ _ _ ih => exact ih

/-! ## Translations depend on the tables in use -/

lemma walkFrom_congr {S : Nat → Nat → Prop}
    (hclosed : ∀ l t i, S (l + 1) t → 1 ≤ l → i < 512 → IsLink (entry m t i) →
      S l (pteTarget (entry m t i)))
    (hsame : ∀ l t i, S l t → i < 512 → entry m' t i = entry m t i) :
    ∀ l t w u, S l t → walkFrom m' vaddr l t w u = walkFrom m vaddr l t w u := by
  intro l
  induction l with
  | zero => intros; rfl
  | succ l ih =>
    intro t w u ht
    have hi : vaddr / 2 ^ (12 + 9 * l) % 512 < 512 := mod_lt _ (by norm_num)
    simp only [walkFrom, hsame _ _ _ ht hi]
    cases hp : (entry m t (vaddr / 2 ^ (12 + 9 * l) % 512)).testBit 0 with
    | false => rfl
    | true =>
      cases hs : (entry m t (vaddr / 2 ^ (12 + 9 * l) % 512)).testBit 7 with
      | true => rfl
      | false =>
        by_cases hl : l = 0
        · simp [hl]
        · rw [ih _ _ _ (hclosed l t _ ht (by omega) hi ⟨hp, hs⟩)]

/-- A translation is the same in two memories, also from two roots, when the root
entry and the tables behind its half are. -/
lemma walk_congr (half : Set Nat) (hh : pml4Index vaddr ∈ half)
    (hroot : entry m' r' (pml4Index vaddr) = entry m r (pml4Index vaddr))
    (hsame : ∀ l t i, TableBehind m half r l t → i < 512 → entry m' t i = entry m t i) :
    walk m' r' vaddr = walk m r vaddr := by
  rw [pml4Index_eq] at hh hroot
  have hi : vaddr / 2 ^ 39 % 512 < 512 := mod_lt _ (by norm_num)
  simp only [walk, walkFrom.eq_2 m' vaddr r' true true 3, walkFrom.eq_2 m vaddr r true true 3,
    show 12 + 9 * 3 = 39 from rfl, hroot]
  cases hp : (entry m r (vaddr / 2 ^ 39 % 512)).testBit 0 with
  | false => rfl
  | true =>
    cases hs : (entry m r (vaddr / 2 ^ 39 % 512)).testBit 7 with
    | true => rfl
    | false =>
      rw [walkFrom_congr (S := TableBehind m half r)
        (fun l t i ht hl hi he => TableBehind.down ht hl hi he) hsame 3 _ _ _
        (TableBehind.top hi hh ⟨hp, hs⟩)]

/-! ## Tables in use are owned -/

section

variable (h : Forest bound spaces reserved m own)
include h

lemma Forest.isLink {g : Nat} {u : Bool} (hg : own g = some (r, l, n)) :
    IsLink (g ||| linkFlags u) ∧ pteTarget (g ||| linkFlags u) = g :=
  have hf := (h.frame g _ _ _ hg).1
  ⟨⟨link_present hf u, link_small hf u⟩, or_target hf (linkFlags_lt u)⟩

lemma Forest.owned_link (ht : own t = some (r, l + 1, n)) (hl : 1 ≤ l) {i : Nat} (hi : i < 512)
    (hb : l = 3 → i < bound) (he : IsLink (entry m t i)) :
    own (pteTarget (entry m t i)) = some (r, l, 512 * n + i) := by
  rcases h.entries t r l n ht hl i hi hb with h0 | ⟨g, u, hg, hgu⟩
  · rw [h0] at he
    exact absurd he not_isLink_zero
  · rw [hgu, (h.isLink hg).2]
    exact hg

lemma Forest.owned_of_behind (hr : r ∈ spaces) (ht : TableBehind m (Set.Iio bound) r l t) :
    ∃ n, own t = some (r, l, n) := by
  induction ht with
  | top hi hh he => exact ⟨_, h.owned_link (h.root r hr) (by norm_num) hi (fun _ => hh) he⟩
  | down ht hl hi he ih =>
    obtain ⟨n, hn⟩ := ih
    exact ⟨_, h.owned_link hn hl hi (fun h3 => by have := ht.level; omega) he⟩

lemma Forest.behind_of_owned :
    ∀ d l n t, l + d = 3 → own t = some (r, l, n) → TableBehind m (Set.Iio bound) r l t := by
  intro d
  induction d with
  | zero =>
    intro l n t hl ht
    obtain rfl : l = 3 := by omega
    obtain ⟨t', u, ht', he⟩ := h.linked t r 3 n ht (by norm_num)
    obtain ⟨rfl, -⟩ := (h.level t' _ _ _ ht').2.2.1 rfl
    obtain ⟨hlink, htarget⟩ := h.isLink (u := u) ht
    have hn : n % 512 < bound :=
      (mod_le n 512).trans_lt ((h.level t _ _ _ ht).2.2.2 rfl)
    rw [← he] at hlink htarget
    rw [← htarget]
    exact TableBehind.top (mod_lt _ (by norm_num)) hn hlink
  | succ d ih =>
    intro l n t hl ht
    obtain ⟨t', u, ht', he⟩ := h.linked t r l n ht (by omega)
    obtain ⟨hlink, htarget⟩ := h.isLink (u := u) ht
    rw [← he] at hlink htarget
    rw [← htarget]
    exact TableBehind.down (ih (l + 1) _ t' (by omega) ht') (h.level t _ _ _ ht).1
      (mod_lt _ (by norm_num)) hlink

lemma Forest.fresh {frames : List Nat} (hnodup : frames.Nodup) (hframe : ∀ f ∈ frames, Frame f)
    (hres : ∀ f ∈ frames, f ∉ reserved) (hroots : ∀ f ∈ frames, f ∉ spaces)
    (hbehind : ∀ f ∈ frames, ∀ r ∈ spaces, ∀ l, ¬ TableBehind m (Set.Iio bound) r l f) :
    Fresh reserved own frames := by
  refine ⟨hnodup, hframe, fun f hf => ⟨?_, hres f hf⟩⟩
  by_contra hown
  obtain ⟨⟨r, l, n⟩, hk⟩ := Option.ne_none_iff_exists'.mp hown
  have hr := h.space f r l n hk
  obtain ⟨h1, h4, hroot, -⟩ := h.level f r l n hk
  by_cases hl : l = 4
  · exact hroots f hf ((hroot hl).1 ▸ hr)
  · exact hbehind f hf r hr l (h.behind_of_owned (3 - l) l n f (by omega) hk)

end

end DestinX.Paging
