import DestinX.Pmm.Pmm
import DestinX.Fs.Dfs
import Mathlib.Data.List.Sort

/-!
# The free pages of a bitmap

The models of the page cache and of the page tables take the pages that are free as a
list. Here the list is the one of a bitmap: the addresses of its clear bits in
ascending order. `pmm_alloc_page` takes the first of them.
-/

namespace DestinX.Pmm

open Base List

/-- The addresses of the clear bits. -/
def freePages (total : Nat) (m : Bitmap) : List Nat :=
  ((List.range total).filter fun i => !bitmapTest m i).map (· * pageSize)

variable {m m' : Bitmap} {total i f : Nat} {l l' : List Nat}

lemma mem_freePages :
    f ∈ freePages total m ↔ ∃ i < total, bitmapTest m i = false ∧ f = i * pageSize := by
  simp only [freePages, mem_map, mem_filter, mem_range, Bool.not_eq_true']
  constructor
  · rintro ⟨i, ⟨hi, hclear⟩, rfl⟩
    exact ⟨i, hi, hclear, rfl⟩
  · rintro ⟨i, hi, hclear, rfl⟩
    exact ⟨i, ⟨hi, hclear⟩, rfl⟩

lemma mul_pageSize_mem (hi : i < total) :
    i * pageSize ∈ freePages total m ↔ bitmapTest m i = false := by
  rw [mem_freePages]
  constructor
  · rintro ⟨j, -, hclear, hij⟩
    obtain rfl : i = j := Nat.eq_of_mul_eq_mul_right (by norm_num [pageSize]) hij
    exact hclear
  · exact fun hclear => ⟨i, hi, hclear, rfl⟩

lemma pairwise_freePages (total : Nat) (m : Bitmap) : (freePages total m).Pairwise (· < ·) := by
  refine (pairwise_lt_range.filter _).map _ fun a b hab => ?_
  exact Nat.mul_lt_mul_of_pos_right hab (by norm_num [pageSize])

/-- Two ascending lists with the same members are the same. -/
lemma eq_of_ascending (hl : l.Pairwise (· < ·)) (hl' : l'.Pairwise (· < ·))
    (hmem : ∀ f, f ∈ l ↔ f ∈ l') : l = l' := by
  have hperm : l.Perm l' :=
    (perm_ext_iff_of_nodup (hl.imp fun h => h.ne) (hl'.imp fun h => h.ne)).mpr hmem
  exact hperm.eq_of_pairwise (fun a b _ _ hab hba => absurd hab hba.not_gt) hl hl'

lemma freePages_alloc (fs : Fs.FsState) (hfree : fs.free = freePages total m) :
    (pmmAllocPage m total).1 = (Fs.pmmAllocPage fs).1 ∧
      (Fs.pmmAllocPage fs).2.free = freePages total (pmmAllocPage m total).2 := by
  have hhead : (freePages total m).head? = (firstClear m total).map (· * pageSize) := by
    rw [freePages, head?_map, head?_filter, firstClear]
  rw [pmmAllocPage, Fs.pmmAllocPage, hfree]
  cases hfirst : firstClear m total with
  | none =>
    rw [hfirst, Option.map_none, head?_eq_none_iff] at hhead
    rw [hhead]
    exact ⟨rfl, by rw [hfree, hhead]⟩
  | some i =>
    rw [hfirst] at hhead
    obtain ⟨rest, hrest⟩ := head?_eq_some_iff.mp hhead
    rw [hrest]
    refine ⟨rfl, ?_⟩
    have hasc := pairwise_freePages total m
    rw [hrest] at hasc
    obtain ⟨hlt, hasc⟩ := pairwise_cons.mp hasc
    refine eq_of_ascending hasc (pairwise_freePages total _) fun f => ?_
    have hmem : f ∈ rest ↔ f ≠ i * pageSize ∧ f ∈ freePages total m := by
      rw [hrest, mem_cons]
      constructor
      · exact fun hf => ⟨(hlt f hf).ne', .inr hf⟩
      · exact fun hf => hf.2.resolve_left hf.1
    rw [hmem, mem_freePages, mem_freePages]
    constructor
    · rintro ⟨hne, j, hj, hclear, rfl⟩
      refine ⟨j, hj, ?_, rfl⟩
      have hji : j ≠ i := by
        rintro rfl
        exact hne rfl
      simp [hji, hclear]
    · rintro ⟨j, hj, hclear, rfl⟩
      simp only [bitmapTest_set, Bool.or_eq_false_iff, decide_eq_false_iff_not] at hclear
      refine ⟨fun heq => hclear.1 ?_, j, hj, hclear.2, rfl⟩
      exact Nat.eq_of_mul_eq_mul_right (by norm_num [pageSize]) heq

end DestinX.Pmm
