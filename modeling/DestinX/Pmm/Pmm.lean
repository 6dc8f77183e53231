import DestinX.Base.Bitmap

/-!
# The physical memory manager

`pmm_alloc_page`, `pmm_alloc_pages` and `pmm_free_page` of `mm/pmm.c`. The bitmap is memory from
the end of the kernel on, so it has bytes behind the bits of the `total_pages` pages. Next to
its result, `pmm_alloc_pages` returns the bits it read and wrote. Its index is an `int`: where
it would pass `2 ^ 31 - 1` it becomes negative, which as a `uint64_t` is more than any number of
pages, and the loop ends.
-/

namespace DestinX.Pmm

open Base List Option Bool

def pageSize : Nat := 4096

/-- The page that `pmm_alloc_page` finds. -/
def firstClear (m : Bitmap) (total : Nat) : Option Nat :=
  (List.range total).find? fun i => !bitmapTest m i

/-- The address and the bitmap. -/
def pmmAllocPage (m : Bitmap) (total : Nat) : Nat × Bitmap :=
  match firstClear m total with
  | some i => (i * pageSize, bitmapSet m i)
  | none => (0, m)

/-- The inner loop from `j` on, with the number of rounds left: the `j` at which it
meets a set bit. -/
def blocked (m : Bitmap) (i : Nat) : Nat → Nat → Option Nat
  | 0, _ => none
  | rounds + 1, j => if bitmapTest m (i + j) then some j else blocked m i rounds (j + 1)

/-- The page at which a run was found, and the bits that were tested. -/
structure Scan where
  found : Option Nat
  read : List Nat

/-- The outer loop from `i` on. -/
def scan (m : Bitmap) (total count i : Nat) : Scan :=
  if total < i ∨ 2 ^ 31 ≤ i then ⟨none, []⟩
  else if bitmapTest m i then
    let s := scan m total count (i + 1)
    ⟨s.found, i :: s.read⟩
  else
    match blocked m i (count - 1) 1 with
    | some j =>
      let s := scan m total count (i + j + 1)
      ⟨s.found, List.range' i (j + 1) ++ s.read⟩
    | none => ⟨some i, List.range' i count⟩
termination_by total + 1 - i

/-- The last loop. -/
def setRun (m : Bitmap) (i count : Nat) : Bitmap :=
  (List.range count).foldl (fun m j => bitmapSet m (i + j)) m

/-- `i * PAGE_SIZE_4KB`, an `int`, as a `uint64_t`. -/
def intAddr (i : Nat) : Nat :=
  if i * pageSize % 2 ^ 32 < 2 ^ 31 then i * pageSize % 2 ^ 32
  else i * pageSize % 2 ^ 32 + 0xFFFFFFFF00000000

/-- The result of `pmm_alloc_pages`, with the first page of the run it took and the
bits that it read or wrote. -/
structure Alloc where
  addr : Nat
  bitmap : Bitmap
  first : Option Nat
  accessed : List Nat

def pmmAllocPages (m : Bitmap) (total count : Nat) : Alloc :=
  if count = 0 then ⟨0, m, none, []⟩
  else if total < count then ⟨0, m, none, []⟩
  else
    let s := scan m total count 0
    match s.found with
    | some i => ⟨intAddr i, setRun m i count, some i, s.read ++ List.range' i count⟩
    | none => ⟨0, m, none, s.read⟩

def pmmFreePage (m : Bitmap) (total paddr : Nat) : Bitmap :=
  if paddr = 0 then m
  else if total ≤ paddr / pageSize then m
  else if bitmapTest m (paddr / pageSize) then bitmapClr m (paddr / pageSize)
  else m

/-! ## Runs of clear bits -/

variable {m m' : Bitmap} {total count i j p : Nat}

/-- The `count` bits from `i` on are clear. -/
def Clear (m : Bitmap) (i count : Nat) : Prop := ∀ p, i ≤ p → p < i + count → bitmapTest m p = false

@[simp] lemma bitmapTest_setRun (m : Bitmap) (i count p : Nat) :
    bitmapTest (setRun m i count) p = (bitmapTest m p || decide (i ≤ p ∧ p < i + count)) := by
  induction count with
  | zero =>
    simp [setRun]
  | succ count ih =>
    rw [setRun, range_succ, foldl_append, foldl_cons, foldl_nil,
      bitmapTest_set, ← setRun, ih, Bool.or_left_comm]
    congr 1
    rw [← decide_or, decide_eq_decide]
    omega

/-- The inner loop ends without meeting a set bit. -/
lemma blocked_none_iff (m : Bitmap) (i rounds j : Nat) :
    blocked m i rounds j = none ↔ Clear m (i + j) rounds := by
  induction rounds generalizing j with
  | zero =>
    refine iff_of_true rfl fun p hp hp' => ?_
    omega
  | succ rounds ih =>
    rw [blocked]
    constructor
    · intro h p hp hp'
      split_ifs at h with ht
      rcases hp.eq_or_lt with rfl | hlt
      · exact eq_false_of_not_eq_true ht
      · exact (ih (j + 1)).mp h p (by omega) (by omega)
    · intro h
      have ht := h (i + j) le_rfl (by omega)
      rw [ht]
      exact (ih (j + 1)).mpr fun p hp hp' => h p (by omega) (by omega)

lemma blocked_some (m : Bitmap) (i rounds j k : Nat) (h : blocked m i rounds j = some k) :
    j ≤ k ∧ k < j + rounds ∧ bitmapTest m (i + k) = true ∧ Clear m (i + j) (k - j) := by
  induction rounds generalizing j with
  | zero => exact absurd h.symm (some_ne_none k)
  | succ rounds ih =>
    rw [blocked] at h
    split_ifs at h with ht
    · obtain rfl : j = k := some_inj.mp h
      exact ⟨le_rfl, by omega, ht, fun p hp hp' => by omega⟩
    · obtain ⟨hle, hlt, hset, hclear⟩ := ih (j + 1) h
      refine ⟨by omega, by omega, hset, fun p hp hp' => ?_⟩
      rcases hp.eq_or_lt with rfl | hlt'
      · exact eq_false_of_not_eq_true ht
      · exact hclear p (by omega) (by omega)

/-! ## The search -/

/-- A property of every search from its rounds: the loop ends, it goes on behind a set
bit `q`, or it finds a run. -/
lemma scan_induct (hc : 1 ≤ count) {motive : Nat → Scan → Prop}
    (stop : ∀ i, (total < i ∨ 2 ^ 31 ≤ i) → motive i ⟨none, []⟩)
    (skip : ∀ i q s, i ≤ total → i < 2 ^ 31 → i ≤ q → q < i + count → Clear m i (q - i) →
      bitmapTest m q = true → motive (q + 1) s →
        motive i ⟨s.found, List.range' i (q + 1 - i) ++ s.read⟩)
    (found : ∀ i, i ≤ total → i < 2 ^ 31 → Clear m i count → motive i ⟨some i, List.range' i count⟩)
    (i : Nat) : motive i (scan m total count i) := by
  by_cases hend : total < i ∨ 2 ^ 31 ≤ i
  · rw [scan, if_pos hend]
    exact stop i hend
  have hi : i ≤ total ∧ i < 2 ^ 31 := by omega
  rw [scan]
  split_ifs with ht
  · have hrest := skip i i _ hi.1 hi.2 le_rfl (by omega) (fun p hp hp' => by omega) ht
      (scan_induct hc stop skip found (i + 1))
    rw [Nat.add_sub_cancel_left] at hrest
    exact hrest
  · have hfirst : bitmapTest m i = false := eq_false_of_not_eq_true ht
    cases hb : blocked m i (count - 1) 1 with
    | none =>
      have hclear := (blocked_none_iff m i (count - 1) 1).mp hb
      refine found i hi.1 hi.2 fun p hp hp' => ?_
      rcases hp.eq_or_lt with rfl | hlt
      · exact hfirst
      · exact hclear p hlt (by omega)
    | some j =>
      obtain ⟨hle, hlt, hset, hclear⟩ := blocked_some m i (count - 1) 1 j hb
      have hrest := skip i (i + j) _ hi.1 hi.2 (by omega) (by omega) (fun p hp hp' => by
          rcases hp.eq_or_lt with rfl | hlt'
          · exact hfirst
          · exact hclear p hlt' (by omega))
        hset (scan_induct hc stop skip found (i + j + 1))
      rw [show i + j + 1 - i = j + 1 by omega] at hrest
      exact hrest
termination_by total + 1 - i

/-- The run that is found is the first one, and no bit behind it was tested. -/
lemma scan_found (hc : 1 ≤ count) {a : Nat} (h : (scan m total count i).found = some a) :
    i ≤ a ∧ a ≤ total ∧ a < 2 ^ 31 ∧ Clear m a count ∧ (∀ b, i ≤ b → b < a → ¬ Clear m b count) ∧
      (∀ p, a ≤ p → p < a + count → p ∈ (scan m total count i).read) ∧
      ∀ p ∈ (scan m total count i).read, p < a + count := by
  revert h
  apply scan_induct hc (m := m) (i := i) (motive := fun i s => s.found = some a →
    i ≤ a ∧ a ≤ total ∧ a < 2 ^ 31 ∧ Clear m a count ∧ (∀ b, i ≤ b → b < a → ¬ Clear m b count) ∧
      (∀ p, a ≤ p → p < a + count → p ∈ s.read) ∧ ∀ p ∈ s.read, p < a + count)
  · intro i _ h
    exact absurd h.symm (some_ne_none a)
  · intro i q s _ _ hq hlt _ hset ih h
    obtain ⟨hle, htotal, hint, hclear, hfirst, hread, hbound⟩ := ih h
    refine ⟨by omega, htotal, hint, hclear, fun b hb hba => ?_, fun p hp hp' => ?_, fun p hp => ?_⟩
    · by_cases hbq : b ≤ q
      · intro hrun
        have := hrun q hbq (by omega)
        rw [hset] at this
        cases this
      · exact hfirst b (by omega) hba
    · exact mem_append_right _ (hread p hp hp')
    · rcases mem_append.mp hp with hp | hp
      · have := mem_range'_1.mp hp
        omega
      · exact hbound p hp
  · intro i htotal hint hclear h
    obtain rfl : i = a := some_inj.mp h
    refine ⟨le_rfl, htotal, hint, hclear, fun b hb hba => by omega, fun p hp hp' => ?_,
      fun p hp => ?_⟩
    · exact mem_range'_1.mpr ⟨hp, hp'⟩
    · exact (mem_range'_1.mp hp).2

/-- When none is found there is none, and the search has met a set bit at the end of
the loop or behind it. -/
lemma scan_none (hc : 1 ≤ count) (h : (scan m total count i).found = none) :
    (∀ b, i ≤ b → b ≤ total → b < 2 ^ 31 → ¬ Clear m b count) ∧
      (i ≤ min total (2 ^ 31 - 1) → ∃ q ∈ (scan m total count i).read,
        min total (2 ^ 31 - 1) ≤ q ∧ bitmapTest m q = true) := by
  revert h
  apply scan_induct hc (m := m) (i := i) (motive := fun i s => s.found = none →
    (∀ b, i ≤ b → b ≤ total → b < 2 ^ 31 → ¬ Clear m b count) ∧
      (i ≤ min total (2 ^ 31 - 1) → ∃ q ∈ s.read,
        min total (2 ^ 31 - 1) ≤ q ∧ bitmapTest m q = true))
  · intro i hend _
    exact ⟨fun b hb hb' hb'' => by omega, fun hi => by omega⟩
  · intro i q s hi hi' hq hlt _ hset ih h
    obtain ⟨hnone, hread⟩ := ih h
    refine ⟨fun b hb htotal hint hrun => ?_, fun _ => ?_⟩
    · by_cases hbq : b ≤ q
      · have := hrun q hbq (by omega)
        rw [hset] at this
        cases this
      · exact hnone b (by omega) htotal hint hrun
    · by_cases hmore : q + 1 ≤ min total (2 ^ 31 - 1)
      · obtain ⟨q', hq', hrest⟩ := hread hmore
        exact ⟨q', mem_append_right _ hq', hrest⟩
      · refine ⟨q, mem_append_left _ (mem_range'_1.mpr ⟨hq, by omega⟩), by omega, hset⟩
  · intro i _ _ _ h
    exact absurd h (some_ne_none i)

/-- A bit that is tested comes right behind clear bits from a page below the bounds of
the loop. -/
lemma scan_read (hc : 1 ≤ count) (h : p ∈ (scan m total count i).read) :
    ∃ b ≤ p, b < 2 ^ 31 ∧ Clear m b (p - b) := by
  revert h
  apply scan_induct hc (m := m) (i := i)
    (motive := fun i s => p ∈ s.read → ∃ b ≤ p, b < 2 ^ 31 ∧ Clear m b (p - b))
  · intro i _ h
    exact absurd h not_mem_nil
  · intro i q s _ hi hq _ hclear _ ih h
    rcases mem_append.mp h with h | h
    · have hp := mem_range'_1.mp h
      exact ⟨i, hp.1, hi, fun p' hp1 hp2 => hclear p' hp1 (by omega)⟩
    · exact ih h
  · intro i _ hi hclear h
    have hp := mem_range'_1.mp h
    exact ⟨i, hp.1, hi, fun p' hp1 hp2 => hclear p' hp1 (by omega)⟩

end DestinX.Pmm
