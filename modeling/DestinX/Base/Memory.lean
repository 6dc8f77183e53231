import Mathlib.Tactic.Ring
import Mathlib.Tactic.Linarith

/-!
# Byte-addressed memory with little-endian words

Loads and stores of any width are defined bytewise, so a store of one width is visible to a load
of another. A load reads back the last store of its width, and does not see a store whose range
it does not meet.
-/

namespace Base

open Nat

/-- Every address holds one byte. -/
abbrev Mem := Nat → UInt8

/-- The little-endian value of the `n` bytes at `a`. -/
def load (m : Mem) : Nat → Nat → Nat
  | _, 0 => 0
  | a, n + 1 => (m a).toNat + 256 * load m (a + 1) n

/-- Write the low `n` bytes of `v` at `a`. -/
def store (m : Mem) (a n v : Nat) : Mem := fun x =>
  if a ≤ x ∧ x < a + n then UInt8.ofNat (v / 256 ^ (x - a)) else m x

/-- The ranges `[a, a + n)` and `[b, b + k)` do not meet. -/
def Apart (a n b k : Nat) : Prop := a + n ≤ b ∨ b + k ≤ a

/-- Ranges without a common byte do not overlap. -/
lemma apart_of_no_common {a n b k : Nat} (hn : 0 < n) (hk : 0 < k)
    (h : ∀ x, a ≤ x → x < a + n → b ≤ x → x < b + k → False) : Apart a n b k := by
  by_contra hna
  simp only [Apart] at hna
  exact h (max a b) (by omega) (by omega) (by omega) (by omega)

lemma store_outside {m : Mem} {a n v x : Nat} (h : x < a ∨ a + n ≤ x) :
    store m a n v x = m x := by
  simp only [store]
  rw [if_neg (by omega)]

lemma store_inside {m : Mem} {a n v x : Nat} (h : a ≤ x) (h' : x < a + n) :
    store m a n v x = UInt8.ofNat (v / 256 ^ (x - a)) := by
  simp only [store]
  rw [if_pos ⟨h, h'⟩]

/-- A load depends only on the bytes of its own range. -/
lemma load_congr {m m' : Mem} {a n : Nat}
    (h : ∀ x, a ≤ x → x < a + n → m x = m' x) : load m a n = load m' a n := by
  induction n generalizing a with
  | zero => rfl
  | succ n ih =>
    simp only [load]
    rw [h a (by omega) (by omega), ih fun x hx hx' => h x (by omega) (by omega)]

lemma load_eq_zero {m : Mem} {a n : Nat} (h : ∀ x, a ≤ x → x < a + n → m x = 0) :
    load m a n = 0 := by
  induction n generalizing a with
  | zero => rfl
  | succ n ih =>
    simp only [load]
    rw [h a (by omega) (by omega), ih fun x hx hx' => h x (by omega) (by omega)]
    rfl

lemma load_lt (m : Mem) (a n : Nat) : load m a n < 256 ^ n := by
  induction n generalizing a with
  | zero => simp [load]
  | succ n ih =>
    have hb := (m a).toNat_lt
    have ht := ih (a + 1)
    simp only [load, pow_succ]
    omega

private lemma load_store_tail (m : Mem) (a v : Nat) :
    ∀ n d k, k + d = n → load (store m a n v) (a + d) k = v / 256 ^ d % 256 ^ k := by
  intro n d k hk
  induction k generalizing d with
  | zero => simp [load, mod_one]
  | succ k ih =>
    have htail := ih (d + 1) (by omega)
    simp only [load]
    rw [show a + d + 1 = a + (d + 1) by omega, htail,
      store_inside (by omega) (by omega), Nat.add_sub_cancel_left]
    have hbyte : (UInt8.ofNat (v / 256 ^ d)).toNat = v / 256 ^ d % 256 := by
      simp [UInt8.toNat_ofNat']
    rw [hbyte, pow_succ 256 d, pow_succ 256 k, ← Nat.div_div_eq_div_mul,
      mul_comm (256 ^ k) 256, mod_mul]

lemma load_store_same {m : Mem} {a n v : Nat} (hv : v < 256 ^ n) :
    load (store m a n v) a n = v := by
  have h := load_store_tail m a v n 0 n rfl
  simpa [mod_eq_of_lt hv] using h

lemma load_store_apart {m : Mem} {a n v b k : Nat} (h : Apart a n b k) :
    load (store m a n v) b k = load m b k := by
  apply load_congr
  intro x hx hx'
  apply store_outside
  simp only [Apart] at h
  omega

-- clients use the lemmas above; unfolding a word into bytes makes unification slow
attribute [irreducible] load store

/-- The 64-bit word at `a`. -/
def load64 (m : Mem) (a : Nat) : Nat := load m a 8

/-- Store a 64-bit word at `a`. -/
def store64 (m : Mem) (a v : Nat) : Mem := store m a 8 v

/-- The 32-bit word at `a`. -/
def load32 (m : Mem) (a : Nat) : Nat := load m a 4

/-- Store a 32-bit word at `a`. -/
def store32 (m : Mem) (a v : Nat) : Mem := store m a 4 v

lemma load64_lt (m : Mem) (a : Nat) : load64 m a < 2 ^ 64 := by
  have h := load_lt m a 8
  norm_num at h
  exact h

lemma load64_eq_zero {m : Mem} {a : Nat} (h : ∀ x, a ≤ x → x < a + 8 → m x = 0) :
    load64 m a = 0 := load_eq_zero h

lemma load64_congr {m m' : Mem} {a : Nat}
    (h : ∀ x, a ≤ x → x < a + 8 → m x = m' x) : load64 m a = load64 m' a :=
  load_congr h

lemma load32_congr {m m' : Mem} {a : Nat}
    (h : ∀ x, a ≤ x → x < a + 4 → m x = m' x) : load32 m a = load32 m' a :=
  load_congr h

lemma load64_store64_same {m : Mem} {a v : Nat} (hv : v < 2 ^ 64) :
    load64 (store64 m a v) a = v := by
  apply load_store_same
  norm_num
  exact hv

lemma load32_store32_same {m : Mem} {a v : Nat} (hv : v < 2 ^ 32) :
    load32 (store32 m a v) a = v := by
  apply load_store_same
  norm_num
  exact hv

lemma load64_store64_apart {m : Mem} {a v b : Nat} (h : Apart a 8 b 8) :
    load64 (store64 m a v) b = load64 m b := load_store_apart h

lemma load64_store32_apart {m : Mem} {a v b : Nat} (h : Apart a 4 b 8) :
    load64 (store32 m a v) b = load64 m b := load_store_apart h

lemma load32_store64_apart {m : Mem} {a v b : Nat} (h : Apart a 8 b 4) :
    load32 (store64 m a v) b = load32 m b := load_store_apart h

lemma load32_store32_apart {m : Mem} {a v b : Nat} (h : Apart a 4 b 4) :
    load32 (store32 m a v) b = load32 m b := load_store_apart h

lemma store64_outside {m : Mem} {a v x : Nat} (h : x < a ∨ a + 8 ≤ x) :
    store64 m a v x = m x := store_outside h

lemma store32_outside {m : Mem} {a v x : Nat} (h : x < a ∨ a + 4 ≤ x) :
    store32 m a v x = m x := store_outside h

end Base
