import DestinX.Pmm.Contiguous

/-!
# First fit

On a conflict `pmm_alloc_pages` jumps behind the used page. No start that would have
fitted lies in between, so on a machine whose bitmap ends in used pages the search finds
what a scan over every start finds.
-/

namespace DestinX.Pmm

open Base List

variable {m : Bitmap} {total count i : Nat}

/-! ## The scan over every start -/

/-- The pages `i`, …, `i + count - 1` are free. -/
def fitsAt (m : Bitmap) (count i : Nat) : Bool :=
  (List.range count).all fun k => !bitmapTest m (i + k)

/-- The first start below `total_pages` at which `count` free pages follow. -/
def firstFit (m : Bitmap) (total count : Nat) : Option Nat :=
  (List.range total).find? (fitsAt m count)

/-- What an allocator does that tries every start. -/
def naiveAllocPages (m : Bitmap) (total count : Nat) : Nat × Bitmap :=
  match firstFit m total count with
  | some i => (pageSize * i, setRun m i count)
  | none => (0, m)

lemma fitsAt_iff : fitsAt m count i = true ↔ Clear m i count := by
  simp only [fitsAt, all_eq_true, mem_range, Bool.not_eq_true', Clear]
  constructor
  · intro h p hp hlt
    have := h (p - i) (by omega)
    rwa [show i + (p - i) = p by omega] at this
  · intro h k hk
    exact h (i + k) (by omega) (by omega)

lemma firstFit_eq_some_iff : firstFit m total count = some i ↔
      i < total ∧ Clear m i count ∧ ∀ b < i, ¬ Clear m b count := by
  rw [firstFit, find?_range_eq_some]
  simp only [fitsAt_iff, mem_range, Bool.not_eq_true', Bool.eq_false_iff, ne_eq]
  tauto

lemma firstFit_eq_none_iff : firstFit m total count = none ↔ ∀ i < total, ¬ Clear m i count := by
  simp only [firstFit, find?_eq_none, mem_range, fitsAt_iff]

/-! ## The search of the source -/

/-- Used pages behind the end keep a free run inside. -/
lemma Clear.inside (hc : 1 ≤ count) (hend : ∀ p, total ≤ p → bitmapTest m p = true)
    (h : Clear m i count) : i + count ≤ total := by
  by_contra hout
  have hlast := h (i + count - 1) (by omega) (by omega)
  rw [hend (i + count - 1) (by omega)] at hlast
  cases hlast

lemma scan_eq_firstFit (htotal : total ≤ 2 ^ 19) (hc : 1 ≤ count)
    (hend : ∀ p, total ≤ p → bitmapTest m p = true) :
    (scan m total count 0).found = firstFit m total count := by
  cases hfit : firstFit m total count with
  | some i =>
    obtain ⟨hi, hclear, hfirst⟩ := firstFit_eq_some_iff.mp hfit
    apply found_of_fits hc (by omega)
    · exact ⟨hclear.inside hc hend, hclear⟩
    · intro b hb hfits
      exact hfirst b hb hfits.2
  | none =>
    have hnone := firstFit_eq_none_iff.mp hfit
    cases hs : (scan m total count 0).found with
    | none => rfl
    | some a =>
      obtain ⟨-, -, -, hclear, -⟩ := scan_found hc hs
      have hin := hclear.inside hc hend
      exact absurd hclear (hnone a (by omega))

/-- On a machine of at most 2 GiB whose page 0 is used and whose bitmap reads as used
behind its end, `pmm_alloc_pages` is first fit: it takes the least start that fits and
returns its address, and returns 0 with nothing changed exactly when no start fits. -/
theorem pmm_alloc_pages_first_fit (htotal : total ≤ 2 ^ 19) (hzero : bitmapTest m 0 = true)
    (hend : ∀ p, total ≤ p → bitmapTest m p = true) (hc : 1 ≤ count) (hle : count ≤ total) :
    let r := pmmAllocPages m total count
    r.first = firstFit m total count ∧ (r.addr, r.bitmap) = naiveAllocPages m total count ∧
      (∀ i, r.first = some i ↔ Clear m i count ∧ ∀ b < i, ¬ Clear m b count) ∧
      ((r.addr = 0 ∧ r.bitmap = m) ↔ ¬ ∃ i, Clear m i count) := by
  have hscan := scan_eq_firstFit htotal hc hend
  have hinside : ∀ i, Clear m i count → i < total := by
    intro i hclear
    have := hclear.inside hc hend
    omega
  cases hfit : firstFit m total count with
  | none =>
    have hnone : ¬ ∃ i, Clear m i count := by
      rintro ⟨i, hclear⟩
      exact firstFit_eq_none_iff.mp hfit i (hinside i hclear) hclear
    rw [pmmAllocPages_none hc hle (hscan.trans hfit)]
    refine ⟨rfl, by rw [naiveAllocPages, hfit], fun i => ?_, iff_of_true ⟨rfl, rfl⟩ hnone⟩
    exact iff_of_false (Option.some_ne_none i).symm fun h => hnone ⟨i, h.1⟩
  | some a =>
    obtain ⟨ha, hclear, hfirst⟩ := firstFit_eq_some_iff.mp hfit
    -- page 0 is used, so the address of a run is never the 0 of a failure
    have hpos : a ≠ 0 := by
      rintro rfl
      have := hclear 0 le_rfl (by omega)
      rw [hzero] at this
      cases this
    have haddr : intAddr a = pageSize * a := (intAddr_eq_mul_iff (by omega)).mpr (by omega)
    rw [pmmAllocPages_found hc hle (hscan.trans hfit)]
    refine ⟨rfl, by rw [naiveAllocPages, hfit, haddr], fun i => ?_, ?_⟩
    · constructor
      · intro h
        obtain rfl : a = i := Option.some_inj.mp h
        exact ⟨hclear, hfirst⟩
      · rintro ⟨hi, hmin⟩
        rw [← hfit]
        exact firstFit_eq_some_iff.mpr ⟨hinside i hi, hi, hmin⟩
    · refine iff_of_false ?_ (not_not.mpr ⟨a, hclear⟩)
      rintro ⟨h0, -⟩
      rw [haddr] at h0
      exact Nat.mul_ne_zero (by decide) hpos h0

/-- Six pages: 0, 2 and 5 are used, and every bit behind them is set. -/
def twoHoles : Bitmap := fun k => if k = 0 then 0xE5 else 0xFF

lemma bitmapTest_twoHoles (p : Nat) (hp : 6 ≤ p) : bitmapTest twoHoles p = true := by
  have hbits : ∀ j < 8, (255 : UInt8).toNat.testBit j = true := by decide
  rw [bitmapTest_eq, twoHoles]
  by_cases hbyte : p / 8 = 0
  · have hlast : p = 6 ∨ p = 7 := by omega
    rcases hlast with rfl | rfl
    · decide
    · decide
  · rw [if_neg hbyte]
    exact hbits _ (Nat.mod_lt _ (by norm_num))

/-- The run of one page is passed over for two pages. -/
theorem pmm_alloc_pages_first_fit_two :
    (pmmAllocPages twoHoles 6 2).first = some 3 ∧ (pmmAllocPages twoHoles 6 2).addr = 0x3000 := by
  have hcall := pmm_alloc_pages_first_fit (show 6 ≤ 2 ^ 19 by norm_num)
    (show bitmapTest twoHoles 0 = true by decide) bitmapTest_twoHoles (show 1 ≤ 2 by norm_num)
    (by norm_num)
  have hfit : firstFit twoHoles 6 2 = some 3 := by decide
  refine ⟨hcall.1.trans hfit, ?_⟩
  have hnaive := congrArg Prod.fst hcall.2.1
  exact hnaive

end DestinX.Pmm
