import DestinX.Pmm.Pmm
import DestinX.Base.Memory

/-!
# Contiguous allocation

`pmm_alloc_pages` takes the first run that is long enough, and its outer loop goes
one page too far. When no run fits below `total_pages`, the search therefore leaves
the bitmap. The address it returns is that of the run only in the first 2 GiB.
-/

namespace DestinX.Pmm

open Base List Option

variable {m m' : Bitmap} {total count count' i j p : Nat}

/-! ## The two outcomes of a search -/

lemma pmmAllocPages_found (hc : 1 ≤ count) (hle : count ≤ total)
    (h : (scan m total count 0).found = some i) :
    pmmAllocPages m total count = ⟨intAddr i, setRun m i count, some i,
      (scan m total count 0).read ++ List.range' i count⟩ := by
  rw [pmmAllocPages, if_neg (by omega), if_neg (by omega)]
  dsimp only
  rw [h]

lemma pmmAllocPages_none (hc : 1 ≤ count) (hle : count ≤ total)
    (h : (scan m total count 0).found = none) :
    pmmAllocPages m total count = ⟨0, m, none, (scan m total count 0).read⟩ := by
  rw [pmmAllocPages, if_neg (by omega), if_neg (by omega)]
  dsimp only
  rw [h]

lemma pmmAllocPages_too_many (hlt : total < count) :
    pmmAllocPages m total count = ⟨0, m, none, []⟩ := by
  rw [pmmAllocPages]
  split_ifs
  · rfl
  · rfl

lemma pmmAllocPages_first (hc : 1 ≤ count) (h : (pmmAllocPages m total count).first = some i) :
    (pmmAllocPages m total count).addr = intAddr i ∧
      (pmmAllocPages m total count).bitmap = setRun m i count ∧ Clear m i count := by
  by_cases hle : count ≤ total
  · cases hs : (scan m total count 0).found with
    | none =>
      rw [pmmAllocPages_none hc hle hs] at h
      exact absurd h.symm (some_ne_none i)
    | some a =>
      rw [pmmAllocPages_found hc hle hs] at h ⊢
      obtain rfl : a = i := some_inj.mp h
      exact ⟨rfl, rfl, (scan_found hc hs).2.2.2.1⟩
  · rw [pmmAllocPages_too_many (Nat.not_le.mp hle)] at h
    exact absurd h.symm (some_ne_none i)

/-- The address in terms of the place of the page within its 4 GiB. -/
lemma intAddr_eq (i : Nat) : intAddr i = if i % 2 ^ 20 < 2 ^ 19 then i % 2 ^ 20 * 4096
      else i % 2 ^ 20 * 4096 + 0xFFFFFFFF00000000 := by
  have hmod : i * pageSize % 2 ^ 32 = i % 2 ^ 20 * 4096 := by
    rw [pageSize]
    omega
  rw [intAddr, hmod]
  by_cases hlow : i % 2 ^ 20 < 2 ^ 19
  · rw [if_pos (by omega), if_pos hlow]
  · rw [if_neg (by omega), if_neg hlow]

lemma intAddr_eq_zero_iff (i : Nat) : intAddr i = 0 ↔ 2 ^ 20 ∣ i := by
  rw [intAddr_eq]
  by_cases hlow : i % 2 ^ 20 < 2 ^ 19
  · rw [if_pos hlow]
    omega
  · rw [if_neg hlow]
    exact iff_of_false (Nat.add_pos_right _ (by norm_num)).ne' (by omega)

/-! ## The search stays inside -/

/-- The run lies below `total_pages` and is free. -/
def Fits (m : Bitmap) (total count i : Nat) : Prop := i + count ≤ total ∧ Clear m i count

/-- A call touches only bits below `total_pages`. If it returns an address, it has
taken a free run of pages and changed no other bit; if it returns 0, nothing. -/
def StaysInside (m : Bitmap) (total count : Nat) : Prop :=
  let r := pmmAllocPages m total count
  (∀ p ∈ r.accessed, p < total) ∧ (r.addr ≠ 0 → ∃ i, r.first = some i ∧ Fits m total count i ∧
      ∀ p, bitmapTest r.bitmap p = (bitmapTest m p || decide (i ≤ p ∧ p < i + count))) ∧
    (r.addr = 0 → r.bitmap = m)

/-- The call is refused at once; or a run fits, and the first that does is not at a
multiple of 4 GiB; or the `int` overflows before the search has come to the end of the
bitmap, from a place with a used page behind it. -/
def SearchEnds (m : Bitmap) (total count : Nat) : Prop :=
  total < count ∨
    (∃ i < 2 ^ 31, Fits m total count i ∧ (∀ b < i, ¬ Fits m total count b) ∧ ¬ 2 ^ 20 ∣ i) ∨
    ((∀ i < 2 ^ 31, ¬ Fits m total count i) ∧
      ∃ p, 2 ^ 31 - 1 ≤ p ∧ p < total ∧ bitmapTest m p = true)

lemma staysInside_of_found (hc : 1 ≤ count) (hle : count ≤ total)
    (h : (scan m total count 0).found = some i) (hfit : i + count ≤ total) (haddr : ¬ 2 ^ 20 ∣ i) :
    StaysInside m total count := by
  obtain ⟨-, -, -, hclear, -, -, hread⟩ := scan_found hc h
  simp only [StaysInside, pmmAllocPages_found hc hle h]
  refine ⟨fun p hp => ?_, fun _ => ⟨i, rfl, ⟨hfit, hclear⟩, fun p => bitmapTest_setRun m i count p⟩,
    fun h0 => absurd ((intAddr_eq_zero_iff i).mp h0) haddr⟩
  rcases mem_append.mp hp with hp | hp
  · exact lt_of_lt_of_le (hread p hp) hfit
  · exact lt_of_lt_of_le (mem_range'_1.mp hp).2 hfit

lemma staysInside_of_overflow (hc : 1 ≤ count) (hle : count ≤ total)
    (h : (scan m total count 0).found = none) (hp : 2 ^ 31 - 1 ≤ p) (hp' : p < total)
    (hset : bitmapTest m p = true) : StaysInside m total count := by
  rw [StaysInside, pmmAllocPages_none hc hle h]
  refine ⟨fun q hq => ?_, fun h0 => absurd rfl h0, fun _ => rfl⟩
  -- bits behind `p` are not reached: the run of clear bits before them would contain `p`
  obtain ⟨b, hb, hint, hclear⟩ := scan_read hc hq
  by_contra hout
  have := hclear p (by omega) (by omega)
  rw [hset] at this
  cases this

lemma found_of_fits (hc : 1 ≤ count) (hint : i < 2 ^ 31) (hfit : Fits m total count i)
    (hfirst : ∀ b < i, ¬ Fits m total count b) : (scan m total count 0).found = some i := by
  obtain ⟨hle, hclear⟩ := hfit
  cases hs : (scan m total count 0).found with
  | none => exact absurd hclear ((scan_none hc hs).1 i (Nat.zero_le i) (by omega) hint)
  | some a =>
    obtain ⟨-, -, -, hclear', hbefore, -, -⟩ := scan_found hc hs
    have hai : a ≤ i := by
      by_contra hlt
      exact hbefore i (Nat.zero_le i) (by omega) hclear
    have hia : i ≤ a := by
      by_contra hlt
      exact hfirst a (by omega) ⟨by omega, hclear'⟩
    rw [le_antisymm hai hia]

lemma found_none_of_not_fits (hc : 1 ≤ count) (hnone : ∀ i < 2 ^ 31, ¬ Fits m total count i)
    (hp : 2 ^ 31 - 1 ≤ p) (hp' : p < total) (hset : bitmapTest m p = true) :
    (scan m total count 0).found = none := by
  cases hs : (scan m total count 0).found with
  | none => rfl
  | some a =>
    obtain ⟨-, -, hint, hclear, -, -, -⟩ := scan_found hc hs
    by_cases hfit : a + count ≤ total
    · exact absurd ⟨hfit, hclear⟩ (hnone a hint)
    · have := hclear p (by omega) (by omega)
      rw [hset] at this
      cases this

/-- `pmm_alloc_pages` stays inside the bitmap and reports what it does exactly when
its search ends there. -/
theorem pmm_alloc_pages_inside_iff (hc : 1 ≤ count) :
    StaysInside m total count ↔ SearchEnds m total count := by
  by_cases hle : count ≤ total
  · constructor
    · intro hin
      simp only [StaysInside] at hin
      right
      cases hs : (scan m total count 0).found with
      | some i =>
        obtain ⟨-, -, hint, hclear, hfirst, hread, -⟩ := scan_found hc hs
        rw [pmmAllocPages_found hc hle hs] at hin
        obtain ⟨hacc, -, hzero⟩ := hin
        have hfit : i + count ≤ total := by
          have := hacc (i + count - 1)
            (mem_append_left _ (hread (i + count - 1) (by omega) (by omega)))
          omega
        refine .inl ⟨i, hint, ⟨hfit, hclear⟩, fun b hb hb' => hfirst b (Nat.zero_le b) hb hb'.2,
          fun hdvd => ?_⟩
        have hsame : setRun m i count = m := hzero ((intAddr_eq_zero_iff i).mpr hdvd)
        have hbit := bitmapTest_setRun m i count i
        rw [hsame, hclear i le_rfl (by omega)] at hbit
        simp only [Bool.false_or, Bool.false_eq, decide_eq_false_iff_not] at hbit
        omega
      | none =>
        obtain ⟨hnone, hread⟩ := scan_none hc hs
        rw [pmmAllocPages_none hc hle hs] at hin
        obtain ⟨q, hq, hlim, hset⟩ := hread (Nat.zero_le _)
        have hq' := hin.1 q hq
        refine .inr ⟨fun i hi hfit => hnone i (Nat.zero_le i) ?_ hi hfit.2, q, by omega, hq', hset⟩
        omega
    · rintro (hlt | ⟨i, hint, hfit, hfirst, haddr⟩ | ⟨hnone, p, hp, hp', hset⟩)
      · omega
      · exact staysInside_of_found hc hle (found_of_fits hc hint hfit hfirst) hfit.1 haddr
      · exact staysInside_of_overflow hc hle
          (found_none_of_not_fits hc hnone hp hp' hset) hp hp' hset
  · refine iff_of_true ?_ (.inl (Nat.not_le.mp hle))
    rw [StaysInside, pmmAllocPages_too_many (Nat.not_le.mp hle)]
    exact ⟨fun p hp => absurd hp not_mem_nil, fun h => absurd rfl h, fun _ => rfl⟩

/-- A machine with three pages of which the last is free. -/
def oneFree : Bitmap := fun k => if k = 0 then 3 else 0

lemma oneFree_fits : Fits oneFree 3 1 2 ∧ ∀ b < 2, ¬ Fits oneFree 3 1 b := by
  refine ⟨⟨le_rfl, fun p hp hp' => ?_⟩, fun b hb hfit => ?_⟩
  · obtain rfl : p = 2 := by omega
    decide
  · have hset : ∀ b < 2, bitmapTest oneFree b = true := by decide
    have := hfit.2 b le_rfl (by omega)
    rw [hset b hb] at this
    cases this

theorem pmm_alloc_pages_inside_one : StaysInside oneFree 3 1 := by
  obtain ⟨hfit, hfirst⟩ := oneFree_fits
  exact (pmm_alloc_pages_inside_iff le_rfl).mpr
    (.inr (.inl ⟨2, by norm_num, hfit, hfirst, by norm_num⟩))

/-- For two pages it finds the last one and the one behind the bitmap. -/
theorem pmm_alloc_pages_leaves : bitmapTest oneFree 0 = true ∧
    (pmmAllocPages oneFree 3 2).first = some 2 ∧ ¬ StaysInside oneFree 3 2 := by
  have hscan : (scan oneFree 3 2 0).found = some 2 := by
    rw [scan, if_neg (by norm_num), if_pos (by decide)]
    rw [scan, if_neg (by norm_num), if_pos (by decide)]
    rw [scan]
    rfl
  have hcall := pmmAllocPages_found (by norm_num) (by norm_num) hscan
  refine ⟨by decide, by rw [hcall], fun hin => ?_⟩
  rw [StaysInside, hcall] at hin
  exact absurd (hin.1 3 (mem_append_right _ (by decide))) (by norm_num)

/-! ## Freeing undoes an allocation -/

/-- `pmm_free_page` for the pages at `addr`, in some order. -/
def freeAll (m : Bitmap) (total addr : Nat) (order : List Nat) : Bitmap :=
  order.foldl (fun m k => pmmFreePage m total ((addr + pageSize * k) % 2 ^ 64)) m

/-- The call takes the run at `i`, which lies below `total_pages`, and returns an
address. The number of pages is an `int`. -/
structure Allocates (m : Bitmap) (total count i : Nat) : Prop where
  positive : 1 ≤ count
  int : count < 2 ^ 31
  first : (pmmAllocPages m total count).first = some i
  fits : i + count ≤ total
  succeeds : (pmmAllocPages m total count).addr ≠ 0

/-- The address is that of the first page, and freeing all pages in any order restores
the bitmap. -/
def Undone (m : Bitmap) (total count i : Nat) : Prop :=
  let r := pmmAllocPages m total count
  r.addr = pageSize * i ∧
    ∀ order, order.Perm (List.range count) → freeAll r.bitmap total r.addr order = m

lemma Allocates.ne_zero (h : Allocates m total count i) : i ≠ 0 := by
  rintro rfl
  apply h.succeeds
  rw [(pmmAllocPages_first h.positive h.first).1]
  exact (intAddr_eq_zero_iff 0).mpr (Nat.dvd_zero _)

lemma intAddr_eq_mul_iff (hi : i < 2 ^ 31) : intAddr i = pageSize * i ↔ i < 2 ^ 19 := by
  rw [intAddr_eq, pageSize]
  by_cases hlow : i % 2 ^ 20 < 2 ^ 19
  · rw [if_pos hlow]
    omega
  · rw [if_neg hlow]
    omega

/-- Freeing a page that is in use clears its bit. -/
lemma bitmapTest_free (hi : i ≠ 0) (hlt : i < total) (hset : bitmapTest m i = true) (q : Nat) :
    bitmapTest (pmmFreePage m total (pageSize * i)) q = true ↔ q ≠ i ∧ bitmapTest m q = true := by
  have hbit : pageSize * i / pageSize = i := Nat.mul_div_cancel_left i (by decide)
  have hne : pageSize * i ≠ 0 := Nat.mul_ne_zero (by decide) hi
  rw [pmmFreePage, if_neg hne, hbit, if_neg (Nat.not_le.mpr hlt), if_pos hset]
  simp

lemma freeAll_cons (m : Bitmap) (total addr k : Nat) (order : List Nat) :
    freeAll m total addr (k :: order) =
      freeAll (pmmFreePage m total ((addr + pageSize * k) % 2 ^ 64)) total addr order := rfl

lemma bitmapTest_freeAll {order : List Nat} (hi : i ≠ 0)
    (hlt : ∀ k ∈ order, i + k < total ∧ i + k < 2 ^ 52) (hnd : order.Nodup)
    (hset : ∀ k ∈ order, bitmapTest m (i + k) = true) (q : Nat) :
    bitmapTest (freeAll m total (pageSize * i) order) q = true ↔
      (∀ k ∈ order, q ≠ i + k) ∧ bitmapTest m q = true := by
  induction order generalizing m with
  | nil => simp [freeAll]
  | cons k order ih =>
    obtain ⟨hk, hnd⟩ := nodup_cons.mp hnd
    have hbounds := hlt k mem_cons_self
    have haddr : (pageSize * i + pageSize * k) % 2 ^ 64 = pageSize * (i + k) := by
      rw [pageSize]
      omega
    have hfree := bitmapTest_free (by omega) hbounds.1 (hset k mem_cons_self)
    rw [freeAll_cons, haddr, ih (fun k' hk' => hlt k' (mem_cons_of_mem k hk')) hnd, hfree,
      forall_mem_cons, and_left_comm, ← and_assoc]
    intro k' hk'
    have hne : k' ≠ k := fun he => hk (he ▸ hk')
    exact (hfree (i + k')).mpr ⟨by omega, hset k' (mem_cons_of_mem k hk')⟩

lemma Allocates.found (h : Allocates m total count i) : i < 2 ^ 31 := by
  have hle : count ≤ total := le_trans (Nat.le_add_left count i) h.fits
  have hfirst := h.first
  cases hs : (scan m total count 0).found with
  | none =>
    rw [pmmAllocPages_none h.positive hle hs] at hfirst
    exact absurd hfirst.symm (some_ne_none i)
  | some a =>
    rw [pmmAllocPages_found h.positive hle hs] at hfirst
    obtain rfl : a = i := some_inj.mp hfirst
    exact (scan_found h.positive hs).2.2.1

lemma Allocates.undone_iff (h : Allocates m total count i) :
    Undone m total count i ↔ i < 2 ^ 19 := by
  obtain ⟨haddr, hbitmap, hclear⟩ := pmmAllocPages_first h.positive h.first
  have hmul := intAddr_eq_mul_iff h.found
  have hcount := h.int
  rw [Undone, haddr, hbitmap]
  constructor
  · intro hundone
    exact hmul.mp hundone.1
  · intro hi
    refine ⟨hmul.mpr hi, fun order hperm => bitmap_ext fun q => Bool.eq_iff_iff.mpr ?_⟩
    have hmem : ∀ k, k ∈ order ↔ k < count := fun k => hperm.mem_iff.trans mem_range
    have hfits := h.fits
    have hplace : ∀ k ∈ order, i + k < total ∧ i + k < 2 ^ 52 := by
      intro k hk
      have hlt := (hmem k).mp hk
      omega
    have hset : ∀ k ∈ order, bitmapTest (setRun m i count) (i + k) = true := by
      intro k hk
      simp [(hmem k).mp hk]
    rw [hmul.mpr hi, bitmapTest_freeAll h.ne_zero hplace (hperm.nodup_iff.mpr nodup_range) hset]
    constructor
    · rintro ⟨hout, hbit⟩
      have hnot : ¬ (i ≤ q ∧ q < i + count) := by
        rintro ⟨hle, hlt⟩
        exact hout (q - i) ((hmem _).mpr (by omega)) (by omega)
      simpa [hnot] using hbit
    · intro hbit
      refine ⟨fun k hk he => ?_, by simp [hbit]⟩
      have := hclear q (by omega) (by have := (hmem k).mp hk; omega)
      rw [hbit] at this
      cases this

/-- Freeing undoes `pmm_alloc_pages` exactly for runs that start in the first 2 GiB.
An allocation made while such a run is still in use returns an address range apart
from it, and is undone itself, exactly when it starts there as well. -/
theorem pmm_free_undoes_iff (h : Allocates m total count i) :
    (Undone m total count i ↔ i < 2 ^ 19) ∧
      (i < 2 ^ 19 → ∀ m' count' i', Allocates m' total count' i' →
        (∀ k < count, bitmapTest m' (i + k) = true) → ((Undone m' total count' i' ∧
            Apart (pmmAllocPages m total count).addr (pageSize * count)
              (pmmAllocPages m' total count').addr (pageSize * count')) ↔ i' < 2 ^ 19)) := by
  refine ⟨h.undone_iff, fun hi m' count' i' h' hlive => ?_⟩
  rw [h'.undone_iff]
  refine and_iff_left_of_imp fun hi' => ?_
  obtain ⟨haddr, -, -⟩ := pmmAllocPages_first h.positive h.first
  obtain ⟨haddr', -, hclear'⟩ := pmmAllocPages_first h'.positive h'.first
  have hpos := h.positive
  have hpos' := h'.positive
  rw [haddr, haddr', (intAddr_eq_mul_iff h.found).mpr hi, (intAddr_eq_mul_iff h'.found).mpr hi']
  -- a common page would be both in use and free
  have hapart : i + count ≤ i' ∨ i' + count' ≤ i := by
    by_contra hmeet
    have hset := hlive (max i i' - i) (by omega)
    rw [show i + (max i i' - i) = max i i' by omega,
      hclear' (max i i') (by omega) (by omega)] at hset
    cases hset
  simp only [Apart, pageSize]
  omega

/-! ### A machine with more than 2 GiB -/

lemma oneFree_allocates : Allocates oneFree 3 1 2 := by
  have hfound := found_of_fits le_rfl (by norm_num) oneFree_fits.1 oneFree_fits.2
  have hcall := pmmAllocPages_found le_rfl (by norm_num) hfound
  refine ⟨le_rfl, by norm_num, by rw [hcall], le_rfl, ?_⟩
  rw [hcall]
  exact mt (intAddr_eq_zero_iff 2).mp (by norm_num)

theorem pmm_free_undoes_one : Undone oneFree 3 1 2 :=
  (pmm_free_undoes_iff oneFree_allocates).1.mpr (by norm_num)

/-- The pages of the first 2 GiB are in use. -/
def lowUsed : Bitmap := fun k => if k < 2 ^ 16 then 255 else 0

lemma bitmapTest_lowUsed (p : Nat) : bitmapTest lowUsed p = decide (p < 2 ^ 19) := by
  rw [bitmapTest_eq, lowUsed]
  have hbits : ∀ j < 8, (255 : UInt8).toNat.testBit j = true := by decide
  by_cases hp : p / 8 < 2 ^ 16
  · rw [if_pos hp, hbits _ (Nat.mod_lt _ (by norm_num)), eq_comm, decide_eq_true_eq]
    omega
  · rw [if_neg hp, UInt8.toNat_zero, Nat.zero_testBit, eq_comm, decide_eq_false_iff_not]
    omega

/-- The next page is returned as an address at the end of the address space. -/
theorem pmm_alloc_pages_wrong_address : bitmapTest lowUsed 0 = true ∧
    Allocates lowUsed (2 ^ 19 + 1) 1 (2 ^ 19) ∧ ¬ Undone lowUsed (2 ^ 19 + 1) 1 (2 ^ 19) := by
  have hfound : (scan lowUsed (2 ^ 19 + 1) 1 0).found = some (2 ^ 19) := by
    apply found_of_fits le_rfl (by norm_num)
    · refine ⟨le_rfl, fun p hp _ => ?_⟩
      rw [bitmapTest_lowUsed]
      exact decide_eq_false (Nat.not_lt.mpr hp)
    · intro b hb hfit
      have := hfit.2 b le_rfl (by omega)
      rw [bitmapTest_lowUsed, decide_eq_false_iff_not] at this
      exact this hb
  have hcall := pmmAllocPages_found le_rfl (by norm_num) hfound
  have halloc : Allocates lowUsed (2 ^ 19 + 1) 1 (2 ^ 19) := by
    refine ⟨le_rfl, by norm_num, by rw [hcall], le_rfl, ?_⟩
    rw [hcall]
    exact mt (intAddr_eq_zero_iff (2 ^ 19)).mp (by norm_num)
  refine ⟨by rw [bitmapTest_lowUsed]; norm_num, halloc, ?_⟩
  rw [halloc.undone_iff]
  exact lt_irrefl _

end DestinX.Pmm
