import DestinX.Paging.Vmm
import DestinX.Base.Bits

/-!
# Tables and their entries

Entries of different tables, and different entries of one table, are independent
words. The entries that `vmm_map_page` writes to upper tables are links: the
address of a frame together with the present and writable bits and, for user
mappings, the user bit.
-/

namespace DestinX.Paging

open Base Bool Nat

variable {m : Mem} {t t' i j e f g flags vaddr : Nat} {frames : List Nat} {u : Bool}

/-! ## Indices -/

lemma pml4Index_eq (vaddr : Nat) : pml4Index vaddr = vaddr / 2 ^ 39 % 512 :=
  shiftRight_and vaddr 39 9

lemma pdptIndex_eq (vaddr : Nat) : pdptIndex vaddr = vaddr / 2 ^ 30 % 512 :=
  shiftRight_and vaddr 30 9

lemma pdIndex_eq (vaddr : Nat) : pdIndex vaddr = vaddr / 2 ^ 21 % 512 :=
  shiftRight_and vaddr 21 9

lemma ptIndex_eq (vaddr : Nat) : ptIndex vaddr = vaddr / 2 ^ 12 % 512 :=
  shiftRight_and vaddr 12 9

lemma index_lt (vaddr : Nat) :
    pml4Index vaddr < 512 ∧ pdptIndex vaddr < 512 ∧ pdIndex vaddr < 512 ∧ ptIndex vaddr < 512 := by
  rw [pml4Index_eq, pdptIndex_eq, pdIndex_eq, ptIndex_eq]
  omega

/-! ## Words of tables -/

/-- A frame that can hold a table. -/
structure Frame (f : Nat) : Prop where
  aligned : 2 ^ 12 ∣ f
  lt : f < 2 ^ 52

lemma entry_lt (m : Mem) (t i : Nat) : entry m t i < 2 ^ 64 := load64_lt _ _

lemma entry_setEntry_self (he : e < 2 ^ 64) : entry (setEntry m t i e) t i = e :=
  load64_store64_same he

lemma entry_setEntry_of_ne (ht : 2 ^ 12 ∣ t) (ht' : 2 ^ 12 ∣ t') (hi : i < 512) (hj : j < 512)
    (hne : ¬ (t' = t ∧ j = i)) : entry (setEntry m t i e) t' j = entry m t' j := by
  apply load64_store64_apart
  obtain ⟨a, rfl⟩ := ht
  obtain ⟨b, rfl⟩ := ht'
  simp only [Apart]
  omega

lemma entry_clearTable_self (hj : j < 512) : entry (clearTable m f) f j = 0 := by
  apply load64_eq_zero
  intro x hx hx'
  have hps : pageSize4KB = 4096 := rfl
  exact if_pos ⟨by omega, by omega⟩

lemma entry_clearTable_of_ne (hf : 2 ^ 12 ∣ f) (ht : 2 ^ 12 ∣ t) (hj : j < 512) (hne : t ≠ f) :
    entry (clearTable m f) t j = entry m t j := by
  apply load64_congr
  intro x hx hx'
  obtain ⟨a, rfl⟩ := hf
  obtain ⟨b, rfl⟩ := ht
  have hps : pageSize4KB = 4096 := rfl
  exact if_neg (by omega)

/-! ## Links -/

def linkFlags (user : Bool) : Nat := if user then 7 else 3

lemma linkFlags_lt (u : Bool) : linkFlags u < 2 ^ 12 := by cases u <;> decide

section

variable (hf : Frame f)
include hf

lemma or_lt (hg : g < 2 ^ 12) : f ||| g < 2 ^ 52 :=
  or_lt_two_pow hf.lt (hg.trans (by norm_num))

lemma or_mask (hg : g < 2 ^ 12) : (f ||| g) &&& pageMask4KB = f := by
  have hlt := or_lt hf hg
  have hmask : pageMask4KB = 2 ^ 64 - 2 ^ 12 := rfl
  rw [hmask, and_high_mask (by omega) (by norm_num), or_flags_div hf.aligned hg]

lemma or_target (hg : g < 2 ^ 12) : pteTarget (f ||| g) = f := by
  have hlt := or_lt hf hg
  rw [pteTarget, mod_eq_of_lt (by omega), or_flags_div hf.aligned hg]

lemma or_testBit (hi : i < 12) : (f ||| g).testBit i = g.testBit i :=
  testBit_or_flags hf.aligned hi

lemma link_present (u : Bool) : (f ||| linkFlags u).testBit 0 = true := by
  rw [or_testBit hf (by norm_num)]
  cases u <;> decide

lemma link_writable (u : Bool) : (f ||| linkFlags u).testBit 1 = true := by
  rw [or_testBit hf (by norm_num)]
  cases u <;> decide

lemma link_user (u : Bool) : (f ||| linkFlags u).testBit 2 = u := by
  rw [or_testBit hf (by norm_num)]
  cases u <;> decide

lemma link_small (u : Bool) : (f ||| linkFlags u).testBit 7 = false := by
  rw [or_testBit hf (by norm_num)]
  cases u <;> decide

end

lemma link_or_user (f : Nat) (u : Bool) : f ||| linkFlags u ||| pteUser = f ||| linkFlags true := by
  rw [Nat.or_assoc]
  cases u <;> rfl

/-! ## One level of `vmm_map_page` -/

/-- The step through an entry that is already a link. -/
lemma vmmEnsure_of_link (hg : Frame g) (he : entry m t i = g ||| linkFlags u) :
    vmmEnsure m frames t i flags =
      (if flags.testBit 2 then setEntry m t i (g ||| linkFlags true) else m, frames, g) := by
  have hp : ¬ entry m t i &&& ptePresent = 0 := by
    rw [ptePresent, and_two_pow_eq_zero_iff, he, link_present hg]
    simp
  have hlt : g ||| linkFlags true < 2 ^ 64 := (or_lt hg (linkFlags_lt true)).trans (by norm_num)
  rw [vmmEnsure, if_neg hp, he, link_or_user]
  cases hu : flags.testBit 2 with
  | false =>
    have h0 : flags &&& pteUser = 0 := and_two_pow_eq_zero_iff.mpr hu
    simp [h0, he, or_mask hg (linkFlags_lt u)]
  | true =>
    have h0 : ¬ flags &&& pteUser = 0 := by
      rw [pteUser, and_two_pow_eq_zero_iff, hu]
      simp
    simp [h0, entry_setEntry_self hlt, or_mask hg (linkFlags_lt true)]

/-- The step through an empty entry, with the next frame of the supply. -/
lemma vmmEnsure_of_empty (hf : Frame f) (he : entry m t i = 0) :
    vmmEnsure m (f :: frames) t i flags =
      (setEntry (clearTable m f) t i (f ||| linkFlags (flags.testBit 2)), frames, f) := by
  have hp : entry m t i &&& ptePresent = 0 := by rw [he, zero_and]
  have hlt : ∀ u, f ||| linkFlags u < 2 ^ 64 :=
    fun u => (or_lt hf (linkFlags_lt u)).trans (by norm_num)
  rw [vmmEnsure, if_pos hp]
  cases hu : flags.testBit 2 with
  | false =>
    have h0 : flags &&& pteUser = 0 := and_two_pow_eq_zero_iff.mpr hu
    have hl : f ||| (ptePresent ||| pteWritable) = f ||| linkFlags false := rfl
    simp [h0, hl, pmmAllocPage, entry_setEntry_self (hlt false), or_mask hf (linkFlags_lt false)]
  | true =>
    have h0 : ¬ flags &&& pteUser = 0 := by
      rw [pteUser, and_two_pow_eq_zero_iff, hu]
      simp
    have hl : f ||| (ptePresent ||| pteWritable ||| pteUser) = f ||| linkFlags true := rfl
    simp [h0, hl, pmmAllocPage, entry_setEntry_self (hlt true), or_mask hf (linkFlags_lt true)]

/-! ## One level of the walk -/

lemma walkFrom_of_empty {l : Nat} {w b : Bool}
    (he : entry m t (vaddr / 2 ^ (12 + 9 * l) % 512) = 0) :
    walkFrom m vaddr (l + 1) t w b = none := by simp [walkFrom, he]

lemma walkFrom_of_link {l : Nat} {w b : Bool} (hl : l ≠ 0) (hg : Frame g)
    (he : entry m t (vaddr / 2 ^ (12 + 9 * l) % 512) = g ||| linkFlags u) :
    walkFrom m vaddr (l + 1) t w b = walkFrom m vaddr l g w (b && u) := by
  simp only [walkFrom.eq_2 m vaddr t w b l, he, link_present hg, link_writable hg, link_user hg,
    link_small hg, or_target hg (linkFlags_lt u), Bool.and_true, true_eq_false, if_false, hl,
    false_eq_true]

lemma walkFrom_of_huge {w b : Bool} (he : entry m t (vaddr / 2 ^ 21 % 512) = e)
    (hpresent : e.testBit 0 = true) (hhuge : e.testBit 7 = true) :
    walkFrom m vaddr 2 t w b = some ⟨pteTarget e / 2 ^ 21 * 2 ^ 21 + vaddr % 2 ^ 21,
      w && e.testBit 1, b && e.testBit 2⟩ := by
  simp only [walkFrom.eq_2 m vaddr t w b 1, show 12 + 9 * 1 = 21 from rfl, he, hpresent, hhuge,
    true_eq_false, if_false, if_true, one_ne_zero, reduceEqDiff]

end DestinX.Paging
