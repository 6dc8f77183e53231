import Mathlib.Data.Nat.Bitwise
import Mathlib.Tactic.Ring
import Mathlib.Tactic.Linarith

/-!
# Dyadic blocks and tilings

A block `(p, k)` starts at `p` and has `2 ^ k` cells. A tiling of `[0, N)` is a set of aligned
blocks that covers every cell once. Halving a block and joining two halves keep a tiling.
-/

namespace Base

open Nat

/-- Cell `x` belongs to the block `b`. -/
def Covers (b : Nat × Nat) (x : Nat) : Prop := b.1 ≤ x ∧ x < b.1 + 2 ^ b.2

/-- The blocks of `B` are aligned, lie below `N` and cover each cell once. -/
structure Tiling (N : Nat) (B : Set (Nat × Nat)) : Prop where
  aligned : ∀ b ∈ B, 2 ^ b.2 ∣ b.1
  inside : ∀ b ∈ B, b.1 + 2 ^ b.2 ≤ N
  cover : ∀ x < N, ∃ b ∈ B, Covers b x
  apart : ∀ b ∈ B, ∀ c ∈ B, ∀ x, Covers b x → Covers c x → b = c

lemma covers_self (p k : Nat) : Covers (p, k) p :=
  ⟨le_rfl, Nat.lt_add_of_pos_right (by positivity)⟩

lemma covers_halves (p k x : Nat) :
    Covers (p, k + 1) x ↔ Covers (p, k) x ∨ Covers (p + 2 ^ k, k) x := by
  simp only [Covers, pow_succ]
  omega

variable {N : Nat} {B B' : Set (Nat × Nat)} {p q k j : Nat}

/-- Blocks that start at one cell are the same block. -/
lemma Tiling.order_unique (ht : Tiling N B) (h : (p, k) ∈ B) (h' : (p, j) ∈ B) : k = j := by
  have := ht.apart _ h _ h' p (covers_self p k) (covers_self p j)
  exact (Prod.mk.inj this).2

lemma Tiling.disjoint (ht : Tiling N B) (h : (p, k) ∈ B) (h' : (q, j) ∈ B)
    (hne : (p, k) ≠ (q, j)) : p + 2 ^ k ≤ q ∨ q + 2 ^ j ≤ p := by
  by_contra hcon
  push Not at hcon
  obtain ⟨h1, h2⟩ := hcon
  apply hne
  rcases le_total p q with hpq | hpq
  · exact ht.apart _ h _ h' q ⟨hpq, h1⟩ (covers_self q j)
  · exact ht.apart _ h _ h' p (covers_self p k) ⟨hpq, h2⟩

lemma Tiling.split (ht : Tiling N B) (hb : (p, k + 1) ∈ B)
    (hB : ∀ b, b ∈ B' ↔ (b ∈ B ∧ b ≠ (p, k + 1)) ∨ b = (p, k) ∨ b = (p + 2 ^ k, k)) :
    Tiling N B' := by
  have hal := ht.aligned _ hb
  have hin := ht.inside _ hb
  have hal' : 2 ^ k ∣ p := (Dvd.intro 2 (pow_succ 2 k).symm).trans hal
  -- a block of the new set covers a cell only if a block of the old set does
  have hold : ∀ b ∈ B', ∀ x, Covers b x → ∃ c ∈ B, Covers c x ∧ (c = b ∧ b ≠ (p, k + 1) ∨
        c = (p, k + 1) ∧ (b = (p, k) ∨ b = (p + 2 ^ k, k))) := by
    intro b hb' x hx
    rcases (hB b).mp hb' with ⟨h, hne⟩ | h
    · exact ⟨b, h, hx, .inl ⟨rfl, hne⟩⟩
    · refine ⟨_, hb, (covers_halves p k x).mpr ?_, .inr ⟨rfl, h⟩⟩
      rcases h with rfl | rfl
      · exact .inl hx
      · exact .inr hx
  refine ⟨?_, ?_, ?_, ?_⟩
  · intro b hb'
    rcases (hB b).mp hb' with ⟨h, _⟩ | rfl | rfl
    · exact ht.aligned b h
    · exact hal'
    · exact (Nat.dvd_add_right hal').mpr dvd_rfl
  · intro b hb'
    simp only [pow_succ] at hin
    rcases (hB b).mp hb' with ⟨h, _⟩ | rfl | rfl
    · exact ht.inside b h
    · simp only
      omega
    · simp only
      omega
  · intro x hx
    obtain ⟨b, hb', hc⟩ := ht.cover x hx
    by_cases hne : b = (p, k + 1)
    · subst hne
      rcases (covers_halves p k x).mp hc with h | h
      · exact ⟨_, (hB _).mpr (.inr (.inl rfl)), h⟩
      · exact ⟨_, (hB _).mpr (.inr (.inr rfl)), h⟩
    · exact ⟨b, (hB b).mpr (.inl ⟨hb', hne⟩), hc⟩
  · intro b hb1 c hc1 x hbx hcx
    obtain ⟨b0, hb0, hbx0, hb2⟩ := hold b hb1 x hbx
    obtain ⟨c0, hc0, hcx0, hc2⟩ := hold c hc1 x hcx
    have heq := ht.apart _ hb0 _ hc0 x hbx0 hcx0
    rcases hb2 with ⟨rfl, hne⟩ | ⟨rfl, hbh⟩
    · rcases hc2 with ⟨rfl, _⟩ | ⟨rfl, _⟩
      · exact heq
      · exact absurd heq hne
    · rcases hc2 with ⟨rfl, hne⟩ | ⟨_, hch⟩
      · exact absurd heq.symm hne
      · rcases hbh with rfl | rfl <;> rcases hch with rfl | rfl
        · rfl
        · simp only [Covers] at hbx hcx
          omega
        · simp only [Covers] at hbx hcx
          omega
        · rfl

lemma Tiling.merge (ht : Tiling N B) (hl : (p, k) ∈ B) (hr : (p + 2 ^ k, k) ∈ B)
    (hal : 2 ^ (k + 1) ∣ p)
    (hB : ∀ b, b ∈ B' ↔ (b ∈ B ∧ b ≠ (p, k) ∧ b ≠ (p + 2 ^ k, k)) ∨ b = (p, k + 1)) :
    Tiling N B' := by
  have hin := ht.inside _ hr
  -- the joined block covers a cell exactly when one of its halves does
  have hhalf : ∀ x, Covers (p, k + 1) x → ∃ c ∈ B, Covers c x ∧
      (c = (p, k) ∨ c = (p + 2 ^ k, k)) := by
    intro x hx
    rcases (covers_halves p k x).mp hx with h | h
    · exact ⟨_, hl, h, .inl rfl⟩
    · exact ⟨_, hr, h, .inr rfl⟩
  refine ⟨?_, ?_, ?_, ?_⟩
  · intro b hb
    rcases (hB b).mp hb with ⟨h, _⟩ | rfl
    · exact ht.aligned b h
    · exact hal
  · intro b hb
    rcases (hB b).mp hb with ⟨h, _⟩ | rfl
    · exact ht.inside b h
    · simp only [pow_succ] at hin ⊢
      omega
  · intro x hx
    obtain ⟨b, hb, hc⟩ := ht.cover x hx
    by_cases hbl : b = (p, k)
    · subst hbl
      exact ⟨_, (hB _).mpr (.inr rfl), (covers_halves p k x).mpr (.inl hc)⟩
    · by_cases hbr : b = (p + 2 ^ k, k)
      · subst hbr
        exact ⟨_, (hB _).mpr (.inr rfl), (covers_halves p k x).mpr (.inr hc)⟩
      · exact ⟨b, (hB b).mpr (.inl ⟨hb, hbl, hbr⟩), hc⟩
  · intro b hb c hc x hbx hcx
    rcases (hB b).mp hb with ⟨hb0, hb1, hb2⟩ | rfl
    · rcases (hB c).mp hc with ⟨hc0, _⟩ | rfl
      · exact ht.apart _ hb0 _ hc0 x hbx hcx
      · obtain ⟨d, hd, hdx, hdh⟩ := hhalf x hcx
        have heq := ht.apart _ hb0 _ hd x hbx hdx
        subst heq
        rcases hdh with h | h
        · exact absurd h hb1
        · exact absurd h hb2
    · rcases (hB c).mp hc with ⟨hc0, hc1, hc2⟩ | rfl
      · obtain ⟨d, hd, hdx, hdh⟩ := hhalf x hbx
        have heq := ht.apart _ hc0 _ hd x hcx hdx
        subst heq
        rcases hdh with h | h
        · exact absurd h hc1
        · exact absurd h hc2
      · rfl

/-! ## The position of the other half -/

lemma xor_two_pow_of_even (h : 2 ^ (k + 1) ∣ p) : p ^^^ 2 ^ k = p + 2 ^ k := by
  obtain ⟨c, rfl⟩ := h
  apply eq_of_testBit_eq
  intro i
  have hlt : 2 ^ k < 2 ^ (k + 1) := Nat.pow_lt_pow_right (by norm_num) (by omega)
  rw [testBit_xor, testBit_two_pow_mul_add c hlt i, testBit_two_pow_mul]
  by_cases hi : i < k + 1
  · have : ¬ i ≥ k + 1 := by omega
    simp [hi, this]
  · have hne : ¬ k = i := by omega
    have hge : i ≥ k + 1 := by omega
    simp [hi, hge, hne]

lemma xor_two_pow_of_odd (h : 2 ^ (k + 1) ∣ p) : (p + 2 ^ k) ^^^ 2 ^ k = p := by
  rw [← xor_two_pow_of_even h, Nat.xor_assoc, Nat.xor_self, xor_zero]

/-- An aligned block is the left or the right half of an aligned block. -/
lemma aligned_cases (h : 2 ^ k ∣ p) : 2 ^ (k + 1) ∣ p ∨ ∃ q, p = q + 2 ^ k ∧ 2 ^ (k + 1) ∣ q := by
  obtain ⟨c, rfl⟩ := h
  rcases even_or_odd' c with ⟨d, rfl | rfl⟩
  · left
    exact ⟨d, by ring⟩
  · right
    exact ⟨2 ^ (k + 1) * d, by ring, dvd_mul_right _ _⟩

/-- The high part of an address does not take part in a low exclusive or. -/
lemma xor_high {n c x y : Nat} (hx : x < 2 ^ n) (hy : y < 2 ^ n) :
    (2 ^ n * c + x) ^^^ y = 2 ^ n * c + (x ^^^ y) := by
  apply eq_of_testBit_eq
  intro i
  have hxy : x ^^^ y < 2 ^ n := xor_lt_two_pow hx hy
  rw [testBit_xor, testBit_two_pow_mul_add c hx i, testBit_two_pow_mul_add c hxy i]
  by_cases hi : i < n
  · simp [hi]
  · have hyi : y.testBit i = false :=
      testBit_lt_two_pow (hy.trans_le (Nat.pow_le_pow_right (by norm_num) (by omega)))
    simp [hi, hyi]

lemma mul_two_pow_xor (x y n : Nat) : x * 2 ^ n ^^^ y * 2 ^ n = (x ^^^ y) * 2 ^ n := by
  rw [← shiftLeft_eq, ← shiftLeft_eq, ← shiftLeft_eq, shiftLeft_xor_distrib]

end Base
