import DestinX.Base.Bits
import Mathlib.Tactic.IntervalCases

/-!
# Bitmaps in bytes

Bit `p` is in byte `p / 8`. Setting and clearing a bit reads and writes one byte. A bitmap is
determined by its bits.
-/

namespace Base

open Function Nat

abbrev Bitmap := Nat → UInt8

/-- The byte with bit `i` set, for `i < 8`. -/
def bitMask (i : Nat) : UInt8 := 1 <<< UInt8.ofNat i

/-- Is bit `p` set? -/
def bitmapTest (m : Bitmap) (p : Nat) : Bool := m (p / 8) &&& bitMask (p % 8) != 0

def bitmapSet (m : Bitmap) (p : Nat) : Bitmap :=
  update m (p / 8) (m (p / 8) ||| bitMask (p % 8))

def bitmapClr (m : Bitmap) (p : Nat) : Bitmap :=
  update m (p / 8) (m (p / 8) &&& ~~~bitMask (p % 8))

variable {m m' : Bitmap} {p q i j n : Nat} {b : UInt8}

lemma toNat_bitMask (hi : i < 8) : (bitMask i).toNat = 2 ^ i := by interval_cases i <;> rfl

lemma and_bitMask_eq_zero_iff (hi : i < 8) : b &&& bitMask i = 0 ↔ b.toNat.testBit i = false := by
  rw [← UInt8.toNat_inj, UInt8.toNat_and, toNat_bitMask hi]
  exact and_two_pow_eq_zero_iff

lemma bitmapTest_eq (m : Bitmap) (p : Nat) :
    bitmapTest m p = (m (p / 8)).toNat.testBit (p % 8) := by
  have hp : p % 8 < 8 := mod_lt _ (by norm_num)
  cases ht : (m (p / 8)).toNat.testBit (p % 8)
  · simp [bitmapTest, (and_bitMask_eq_zero_iff hp).mpr ht]
  · have hne : m (p / 8) &&& bitMask (p % 8) ≠ 0 := by
      intro h0
      rw [(and_bitMask_eq_zero_iff hp).mp h0] at ht
      cases ht
    simp [bitmapTest, hne]

/-- Bit `q` of a bitmap of which one byte has been changed. -/
lemma bitmapTest_update (m : Bitmap) (k q : Nat) (b : UInt8) : bitmapTest (update m k b) q =
      if q / 8 = k then b.toNat.testBit (q % 8) else bitmapTest m q := by
  rw [bitmapTest_eq]
  split_ifs with h
  · rw [h, update_self]
  · rw [update_of_ne h, bitmapTest_eq]

@[simp] lemma bitmapTest_set (m : Bitmap) (p q : Nat) :
    bitmapTest (bitmapSet m p) q = (decide (q = p) || bitmapTest m q) := by
  have hp : p % 8 < 8 := mod_lt _ (by norm_num)
  rw [bitmapSet, bitmapTest_update]
  split_ifs with h
  · rw [UInt8.toNat_or, toNat_bitMask hp, testBit_or, testBit_two_pow, bitmapTest_eq, h,
      Bool.or_comm]
    congr 1
    rw [decide_eq_decide]
    omega
  · have hne : q ≠ p := fun he => h (he ▸ rfl)
    simp [hne]

lemma testBit_not (hi : i < 8) : (~~~b).toNat.testBit i = !b.toNat.testBit i := by
  have hnot : (~~~b).toNat = 2 ^ 8 - (b.toNat + 1) := by
    rw [UInt8.toNat_not, UInt8.size]
    omega
  rw [hnot, testBit_two_pow_sub_succ b.toNat_lt]
  simp [hi]

@[simp] lemma bitmapTest_clr (m : Bitmap) (p q : Nat) :
    bitmapTest (bitmapClr m p) q = (!decide (q = p) && bitmapTest m q) := by
  have hp : p % 8 < 8 := mod_lt _ (by norm_num)
  have hq : q % 8 < 8 := mod_lt _ (by norm_num)
  rw [bitmapClr, bitmapTest_update]
  split_ifs with h
  · rw [UInt8.toNat_and, testBit_and, testBit_not hq, toNat_bitMask hp, testBit_two_pow,
      bitmapTest_eq, h, Bool.and_comm]
    congr 2
    rw [decide_eq_decide]
    omega
  · have hne : q ≠ p := fun he => h (he ▸ rfl)
    simp [hne]

/-- A bitmap is determined by its bits. -/
lemma bitmap_ext (h : ∀ p, bitmapTest m p = bitmapTest m' p) : m = m' := by
  funext k
  rw [← UInt8.toNat_inj]
  apply eq_of_testBit_eq
  intro i
  by_cases hi : i < 8
  · have hk := h (8 * k + i)
    rw [bitmapTest_eq, bitmapTest_eq, show (8 * k + i) / 8 = k by omega,
      show (8 * k + i) % 8 = i by omega] at hk
    exact hk
  · have hbig : ∀ b : UInt8, b.toNat.testBit i = false := fun b =>
      testBit_lt_two_pow (b.toNat_lt.trans_le
        (Nat.pow_le_pow_right (by norm_num) (not_lt.mp hi)))
    rw [hbig, hbig]

end Base
