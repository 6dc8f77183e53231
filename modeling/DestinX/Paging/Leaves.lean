import DestinX.Paging.Reach
import Mathlib.Tactic.IntervalCases

/-!
# Mapped pages

The last-level tables of one address space hold a finite map from page numbers to frames and
flags. A later user mapping raises the user bit on its way for all pages behind it: the way to a
user page is open, while the right to a supervisor page is refused by its own entry.
-/

namespace DestinX.Paging

open Base Function Option Prod Bool Nat

/-- The abstract address space: page number to frame and flags. -/
abbrev PageMap := Nat → Option (Nat × Nat)

/-- Subsets of `PTE_WRITABLE`, `PTE_USER`, `PTE_WT` and `PTE_CD`. -/
def MapFlags (flags : Nat) : Prop :=
  flags ||| (pteWritable ||| pteUser ||| pteWT ||| pteCD) =
    pteWritable ||| pteUser ||| pteWT ||| pteCD

instance (flags : Nat) : Decidable (MapFlags flags) := inferInstanceAs (Decidable (_ = _))

/-- The word of a last-level table for a page. -/
def leafEntry : Option (Nat × Nat) → Nat
  | none => 0
  | some (p, flags) => p ||| (ptePresent ||| flags)

/-- What the walk of the processor makes of a page. -/
def translation (vaddr : Nat) (page : Nat × Nat) : Translation :=
  ⟨page.1 + vaddr % 2 ^ 12, page.2.testBit 1, page.2.testBit 2⟩

structure Leaves (m : Mem) (own : Owner) (r : Nat) (pages : PageMap) : Prop where
  valid : ∀ P p flags, pages P = some (p, flags) → Frame p ∧ MapFlags flags
  leaf : ∀ f n, own f = some (r, 1, n) → ∀ i < 512, entry m f i = leafEntry (pages (512 * n + i))
  table : ∀ P, pages P ≠ none → ∃ f, own f = some (r, 1, P / 512)
  user : ∀ P p flags, pages P = some (p, flags) → flags.testBit 2 = true →
    ∀ l t, 1 ≤ l → own t = some (r, l + 1, P / 512 ^ (l + 1)) →
      (entry m t (P / 512 ^ l % 512)).testBit 2 = true

variable {bound : Nat} {spaces reserved : Set Nat} {m m' : Mem} {own own' : Owner}
  {r l n t i g P flags vaddr : Nat} {key : Nat × Nat × Nat} {user : Bool} {pages : PageMap}

/-! ## Flags and entries -/

lemma MapFlags.lt (h : MapFlags flags) : flags < 32 := by
  have hle : flags ≤ flags ||| (pteWritable ||| pteUser ||| pteWT ||| pteCD) := left_le_or
  rw [show flags ||| (pteWritable ||| pteUser ||| pteWT ||| pteCD) = 30 from h] at hle
  omega

lemma MapFlags.bits (h : MapFlags flags) :
    (ptePresent ||| flags).testBit 0 = true ∧ (ptePresent ||| flags).testBit 1 = flags.testBit 1 ∧
      (ptePresent ||| flags).testBit 2 = flags.testBit 2 ∧ ptePresent ||| flags < 2 ^ 12 := by
  have hlt := h.lt
  interval_cases flags <;> decide

lemma leafEntry_lt {page : Option (Nat × Nat)}
    (h : ∀ p flags, page = some (p, flags) → Frame p ∧ MapFlags flags) :
    leafEntry page < 2 ^ 64 := by
  cases page with
  | none => norm_num [leafEntry]
  | some page =>
    obtain ⟨hp, hf⟩ := h page.1 page.2 rfl
    exact (or_lt hp hf.bits.2.2.2).trans (by norm_num)

/-- `vmm_unmap_page` returns the frame of the entry it clears. -/
lemma leafEntry_mask {page : Option (Nat × Nat)}
    (h : ∀ p flags, page = some (p, flags) → Frame p ∧ MapFlags flags) :
    leafEntry page &&& pageMask4KB = (page.map Prod.fst).getD 0 := by
  cases page with
  | none => exact zero_and _
  | some page =>
    obtain ⟨hp, hf⟩ := h page.1 page.2 rfl
    exact or_mask hp hf.bits.2.2.2

/-! ## Regions of a page -/

lemma index_eq (hl : l ≤ 3) : vaddr / 2 ^ (12 + 9 * l) % 512 =
    pageNumber vaddr / 512 ^ l % 512 := by
  rw [pageNumber]
  interval_cases l <;> omega

lemma region_step (P l : Nat) : 512 * (P / 512 ^ (l + 1)) + P / 512 ^ l % 512 = P / 512 ^ l := by
  rw [pow_succ, ← Nat.div_div_eq_div_mul]
  exact div_add_mod _ _

lemma Leaves.ancestor (h : Leaves m own r pages) (hF : Forest bound spaces reserved m own)
    (hP : pages P ≠ none) (hl : l ≤ 3) : ∃ t, own t = some (r, l + 1, P / 512 ^ (l + 1)) := by
  obtain ⟨f, hf⟩ := h.table P hP
  obtain ⟨t, ht⟩ := hF.ancestor l 1 _ f (by omega) hf
  exact ⟨t, by rw [ht, Nat.div_div_eq_div_mul, ← pow_succ', add_comm]⟩

/-! ## Making tables available -/

lemma Leaves.new_empty (h : Leaves m own r pages) (hF : Forest bound spaces reserved m own)
    (hE : Ensured bound spaces reserved m m' own own' t i key user g) {f : Nat}
    (hnone : own f = none) (hl : l ≤ 3) (hf : own' f = some (r, l + 1, P / 512 ^ (l + 1))) :
    pages P = none := by
  by_contra hP
  obtain ⟨t', ht'⟩ := h.ancestor hF hP hl
  obtain rfl := hE.forest.owner_unique (hE.mono _ _ ht') hf
  rw [hnone] at ht'
  cases ht'

lemma Ensured.owner_cases (hE : Ensured bound spaces reserved m m' own own' t i key user g)
    {f : Nat} {k : Nat × Nat × Nat} (hf : own' f = some k) :
    (own f = none ∧ k = key ∧ ∀ j < 512, entry m' f j = 0) ∨ own f = some k := by
  cases hown : own f with
  | none =>
    obtain ⟨hk, hz⟩ := hE.new f hown (by rw [hf]; exact some_ne_none k)
    exact .inl ⟨rfl, some.inj (hf.symm.trans hk), hz⟩
  | some k' => exact .inr (by rw [← hE.mono f k' hown, hf])

/-- The user bits of existing entries are never lowered. -/
lemma Ensured.user_mono (hE : Ensured bound spaces reserved m m' own own' t i key user g)
    {f j : Nat} {k : Nat × Nat × Nat} (hf : own f = some k) (hj : j < 512)
    (hu : (entry m f j).testBit 2 = true) : (entry m' f j).testBit 2 = true := by
  have hown : own' f = own f := (hE.mono f k hf).trans hf.symm
  have hfr := (hE.forest.frame f _ _ _ (hE.mono f _ hf)).1
  by_cases hti : f = t ∧ j = i
  · obtain ⟨rfl, rfl⟩ := hti
    obtain ⟨u, he, -, hraise⟩ := hE.link
    rw [he, link_user (hE.forest.frame g _ _ _ hE.child).1, hraise hu]
  · rwa [hE.same f j hfr.aligned hj hown hti]

section

variable (h : Leaves m own r pages)
include h

lemma Leaves.ensure (hF : Forest bound spaces reserved m own)
    (hE : Ensured bound spaces reserved m m' own own' t i key user g)
    (ht : own t = some (r, l + 1, n)) (hl : 1 ≤ l) : Leaves m' own' r pages := by
  refine ⟨h.valid, ?_, ?_, ?_⟩
  · intro f n' hf j hj
    rcases hE.owner_cases hf with ⟨hnone, -, hz⟩ | hold
    · have hP : pages (512 * n' + j) = none := by
        refine h.new_empty hF hE hnone (zero_le 3) ?_
        rw [hf, show (512 * n' + j) / 512 ^ (0 + 1) = n' by omega]
      rw [hz j hj, hP]
      rfl
    · have hne : ¬ (f = t ∧ j = i) := by
        rintro ⟨rfl, -⟩
        rw [hold, some.injEq, mk.injEq, mk.injEq] at ht
        omega
      rw [hE.same f j (hF.frame f _ _ _ hold).1.aligned hj (hf.trans hold.symm) hne]
      exact h.leaf f n' hold j hj
  · intro P hP
    obtain ⟨f, hf⟩ := h.table P hP
    exact ⟨f, hE.mono f _ hf⟩
  · intro P p flags hP hu l' t' hl' ht'
    have hlevel := hE.forest.level t' _ _ _ ht'
    rcases hE.owner_cases ht' with ⟨hnone, -, -⟩ | hold
    · rw [h.new_empty hF hE hnone (by omega) ht'] at hP
      cases hP
    · exact hE.user_mono hold (mod_lt _ (by norm_num)) (h.user P p flags hP hu l' t' hl' hold)

/-! ## Writing a last-level entry -/

lemma Leaves.set_leaf (hF : Forest bound spaces reserved m own)
    (ht : own t = some (r, 1, P / 512)) (page : Option (Nat × Nat))
    (hvalid : ∀ p flags, page = some (p, flags) → Frame p ∧ MapFlags flags)
    (huser : ∀ p flags, page = some (p, flags) → flags.testBit 2 = true → ∀ l t, 1 ≤ l →
      own t = some (r, l + 1, P / 512 ^ (l + 1)) →
        (entry m t (P / 512 ^ l % 512)).testBit 2 = true) :
    Leaves (setEntry m t (P % 512) (leafEntry page)) own r (update pages P page) := by
  have hi : P % 512 < 512 := mod_lt _ (by norm_num)
  have htf := (hF.frame t _ _ _ ht).1
  -- tables above the last level keep their entries
  have hupper : ∀ {l t' n j}, 1 ≤ l → own t' = some (r, l + 1, n) → j < 512 →
      entry (setEntry m t (P % 512) (leafEntry page)) t' j = entry m t' j := by
    intro l t' n j hl ht' hj
    apply entry_setEntry_of_ne htf.aligned (hF.frame t' _ _ _ ht').1.aligned hi hj
    rintro ⟨rfl, -⟩
    rw [ht, some.injEq, mk.injEq, mk.injEq] at ht'
    omega
  refine ⟨?_, ?_, ?_, ?_⟩
  · intro Q p flags hQ
    by_cases hPQ : Q = P
    · subst hPQ
      exact hvalid p flags (by rwa [update_self] at hQ)
    · exact h.valid Q p flags (by rwa [update_of_ne hPQ] at hQ)
  · intro f n' hf j hj
    by_cases hPQ : 512 * n' + j = P
    · obtain rfl : j = P % 512 := by omega
      obtain rfl : n' = P / 512 := by omega
      obtain rfl := hF.owner_unique hf ht
      rw [hPQ, update_self, entry_setEntry_self (leafEntry_lt hvalid)]
    · rw [update_of_ne hPQ, ← h.leaf f n' hf j hj]
      apply entry_setEntry_of_ne htf.aligned (hF.frame f _ _ _ hf).1.aligned hi hj
      rintro ⟨rfl, rfl⟩
      rw [ht, some.injEq, mk.injEq, mk.injEq] at hf
      omega
  · intro Q hQ
    by_cases hPQ : Q = P
    · exact ⟨t, hPQ ▸ ht⟩
    · exact h.table Q (by rwa [update_of_ne hPQ] at hQ)
  · intro Q p flags hQ hu l t' hl ht'
    rw [hupper hl ht' (mod_lt _ (by norm_num))]
    by_cases hPQ : Q = P
    · subst hPQ
      exact huser p flags (by rwa [update_self] at hQ) hu l t' hl ht'
    · exact h.user Q p flags (by rwa [update_of_ne hPQ] at hQ) hu l t' hl ht'

/-! ## The walk -/

/-- From a table on the way to a page, the walk of the processor ends at the page
or, when the page is not mapped, at an empty entry. -/
lemma Leaves.walkFrom (hF : Forest 512 spaces reserved m own) :
    ∀ l t u, l ≤ 3 → own t = some (r, l + 1, pageNumber vaddr / 512 ^ (l + 1)) →
      walkFrom m vaddr (l + 1) t true u = (pages (pageNumber vaddr)).map fun page =>
          ⟨page.1 + vaddr % 2 ^ 12, page.2.testBit 1, u && page.2.testBit 2⟩ := by
  intro l
  induction l with
  | zero =>
    intro t u hl ht
    have hstep := region_step (pageNumber vaddr) 0
    have he := h.leaf t _ ht _ (mod_lt (pageNumber vaddr / 512 ^ 0) (by norm_num))
    rw [hstep, pow_zero, Nat.div_one] at he
    simp only [Paging.walkFrom, index_eq hl, he, pow_zero, Nat.div_one, if_true]
    cases hp : pages (pageNumber vaddr) with
    | none => simp [leafEntry]
    | some page =>
      obtain ⟨hframe, hflags⟩ := h.valid _ page.1 page.2 hp
      obtain ⟨h0, h1, h2, hlt⟩ := hflags.bits
      simp [leafEntry, or_testBit hframe, or_target hframe hlt, h0, h1, h2]
  | succ l ih =>
    intro t u hl ht
    have hidx : pageNumber vaddr / 512 ^ (l + 1) % 512 < 512 := mod_lt _ (by norm_num)
    have hstep := region_step (pageNumber vaddr) (l + 1)
    rcases hF.entries t r (l + 1) _ ht (by omega) _ hidx (fun _ => hidx) with he | ⟨g, b, hg, he⟩
    · have hp : pages (pageNumber vaddr) = none := by
        by_contra hP
        obtain ⟨g, hg⟩ := h.ancestor hF hP (show l ≤ 3 by omega)
        refine hF.no_child (t := t) ?_ (by omega) he hg
        rw [ht, pow_succ, Nat.div_div_eq_div_mul]
      simp [Paging.walkFrom, index_eq hl, he, hp]
    · rw [hstep] at hg
      have hgf := (hF.frame g _ _ _ hg).1
      have hbit : ∀ page, pages (pageNumber vaddr) = some page →
          (b && page.2.testBit 2) = page.2.testBit 2 := by
        intro page hp
        cases hu : page.2.testBit 2 with
        | false => exact and_false b
        | true =>
          have hb := h.user _ page.1 page.2 hp hu (l + 1) t (by omega) ht
          rw [he, link_user hgf] at hb
          rw [hb]
          rfl
      simp only [Paging.walkFrom.eq_2 m vaddr t true u (l + 1), index_eq hl, he,
        link_present hgf, link_writable hgf, link_user hgf, link_small hgf,
        or_target hgf (linkFlags_lt b), Bool.true_and, true_eq_false, if_false,
        succ_ne_zero, false_eq_true]
      rw [ih g (u && b) (by omega) hg]
      cases hp : pages (pageNumber vaddr) with
      | none => rfl
      | some page => simp [Bool.and_assoc, hbit page hp]

lemma Leaves.walk (hF : Forest 512 spaces reserved m own) (hr : r ∈ spaces) (vaddr : Nat) :
    walk m r vaddr = (pages (pageNumber vaddr)).map (translation vaddr) := by
  have hlt := pageNumber_lt vaddr
  have hroot : own r = some (r, 3 + 1, pageNumber vaddr / 512 ^ (3 + 1)) := by
    rw [hF.root r hr, show pageNumber vaddr / 512 ^ (3 + 1) = 0 by omega]
  rw [Paging.walk, h.walkFrom hF 3 r true le_rfl hroot]
  cases pages (pageNumber vaddr) with
  | none => rfl
  | some page => simp [translation]

end

end DestinX.Paging
