import Mathlib.Data.Nat.Bitwise
import Mathlib.Tactic.NormNum
import Mathlib.Tactic.Positivity

/-!
# Bits of machine words

Masks and shifts as division and remainder, and words made of an aligned address
and flags below the alignment.
-/

namespace Base

open Nat

variable {x f g k n i : Nat}

lemma and_two_pow_eq_zero_iff : x &&& 2 ^ i = 0 ↔ x.testBit i = false := by
  rw [and_two_pow]
  cases x.testBit i <;> simp

lemma shiftRight_and (x k n : Nat) : x >>> k &&& (2 ^ n - 1) = x / 2 ^ k % 2 ^ n := by
  rw [and_two_pow_sub_one_eq_mod, shiftRight_eq_div_pow]

/-- Clearing the low bits of a word. -/
lemma and_high_mask (hx : x < 2 ^ n) (hk : k ≤ n) :
    x &&& (2 ^ n - 2 ^ k) = x / 2 ^ k * 2 ^ k := by
  have hmask : 2 ^ n - 2 ^ k = (2 ^ (n - k) - 1) * 2 ^ k := by
    rw [Nat.sub_mul, ← pow_add, Nat.sub_add_cancel hk, one_mul]
  apply eq_of_testBit_eq
  intro j
  rw [hmask, testBit_and, testBit_mul_two_pow, testBit_mul_two_pow,
    testBit_div_two_pow]
  by_cases hj : k ≤ j
  · rw [Nat.sub_add_cancel hj]
    by_cases hjn : j < n
    · have : j - k < n - k := by omega
      simp [hj, this]
    · have hbig : x.testBit j = false :=
        testBit_lt_two_pow (hx.trans_le (Nat.pow_le_pow_right (by norm_num) (by omega)))
      simp [hbig]
  · simp [hj]

/-- A word made of an address that is a multiple of `2 ^ k` and flags below it. -/
lemma or_flags (hf : 2 ^ k ∣ f) (hg : g < 2 ^ k) : f ||| g = f + g := by
  obtain ⟨a, rfl⟩ := hf
  exact (two_pow_add_eq_or_of_lt hg a).symm

lemma testBit_or_flags (hf : 2 ^ k ∣ f) (hi : i < k) : (f ||| g).testBit i = g.testBit i := by
  obtain ⟨a, rfl⟩ := hf
  have hlow : (2 ^ k * a).testBit i = false := by
    rw [mul_comm, testBit_mul_two_pow]
    simp [not_le.mpr hi]
  rw [testBit_or, hlow, Bool.false_or]

lemma or_flags_div (hf : 2 ^ k ∣ f) (hg : g < 2 ^ k) : (f ||| g) / 2 ^ k * 2 ^ k = f := by
  rw [or_flags hf hg]
  obtain ⟨a, rfl⟩ := hf
  have hpos : 0 < 2 ^ k := by positivity
  rw [mul_add_div hpos, div_eq_of_lt hg, add_zero, mul_comm]

end Base
