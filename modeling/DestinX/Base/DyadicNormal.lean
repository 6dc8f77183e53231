import DestinX.Base.Dyadic

/-!
# Merged families of dyadic blocks

A family of disjoint aligned blocks is merged up to an order when it never holds both halves of
a block of at most this order. Such a family is determined by the cells it covers.
-/

namespace Base

open Nat

/-- Disjoint aligned blocks of order at most `K`, no two of which are the halves of
one such block. -/
structure Merged (K : Nat) (F : Set (Nat × Nat)) : Prop where
  aligned : ∀ b ∈ F, 2 ^ b.2 ∣ b.1
  bounded : ∀ b ∈ F, b.2 ≤ K
  apart : ∀ b ∈ F, ∀ c ∈ F, ∀ x, Covers b x → Covers c x → b = c
  merged : ∀ p k, k < K → (p, k) ∈ F → (p ^^^ 2 ^ k, k) ∉ F

/-- The cells that the blocks of a family cover. -/
def Union (F : Set (Nat × Nat)) (x : Nat) : Prop := ∃ b ∈ F, Covers b x

variable {K k j p q x y : Nat} {F G : Set (Nat × Nat)}

/-- The cells of an aligned block are those with the same quotient. -/
lemma covers_iff_div (hp : 2 ^ k ∣ p) : Covers (p, k) x ↔ x / 2 ^ k = p / 2 ^ k := by
  have hpos : 0 < 2 ^ k := by positivity
  obtain ⟨c, rfl⟩ := hp
  rw [Nat.mul_div_cancel_left c hpos, Nat.div_eq_iff hpos]
  simp only [Covers]
  rw [mul_comm (2 ^ k) c]
  omega

/-- Of two aligned blocks with a common cell the smaller one lies in the other. -/
lemma covers_of_common (hp : 2 ^ k ∣ p) (hq : 2 ^ j ∣ q) (hkj : k ≤ j) (hpy : Covers (p, k) y)
    (hqy : Covers (q, j) y) (hpx : Covers (p, k) x) : Covers (q, j) x := by
  rw [covers_iff_div hp] at hpy hpx
  rw [covers_iff_div hq] at hqy ⊢
  obtain ⟨d, rfl⟩ := Nat.exists_eq_add_of_le hkj
  rw [pow_add, ← Nat.div_div_eq_div_mul] at hqy ⊢
  rw [hpx, ← hpy, hqy]

/-- Aligned blocks of one order with a common cell are the same. -/
lemma start_eq_of_common (hp : 2 ^ k ∣ p) (hq : 2 ^ k ∣ q) (hpy : Covers (p, k) y)
    (hqy : Covers (q, k) y) : p = q := by
  have hpq := covers_of_common hp hq le_rfl hpy hqy (covers_self p k)
  have hqp := covers_of_common hq hp le_rfl hqy hpy (covers_self q k)
  exact le_antisymm hqp.1 hpq.1

/-- A block that a merged family covers lies inside one of its blocks. -/
lemma Merged.absorbs (h : Merged K F) (hk : k ≤ K) (hp : 2 ^ k ∣ p)
    (hcov : ∀ x, Covers (p, k) x → Union F x) :
    ∃ b ∈ F, k ≤ b.2 ∧ ∀ x, Covers (p, k) x → Covers b x := by
  induction k generalizing p with
  | zero =>
    obtain ⟨b, hb, hbp⟩ := hcov p (covers_self p 0)
    refine ⟨b, hb, zero_le _, fun x hx => ?_⟩
    obtain rfl : x = p := by
      simp only [Covers, pow_zero] at hx
      omega
    exact hbp
  | succ k ih =>
    have hp' : 2 ^ k ∣ p := (Dvd.intro 2 (pow_succ 2 k).symm).trans hp
    have hr' : 2 ^ k ∣ p + 2 ^ k := (Nat.dvd_add_right hp').mpr dvd_rfl
    have hhalves := covers_halves p k
    obtain ⟨⟨q, i⟩, hq, hki, hqx⟩ :=
      ih (by omega) hp' fun x hx => hcov x ((hhalves x).mpr (.inl hx))
    obtain ⟨⟨r, j⟩, hr, hkj, hrx⟩ :=
      ih (by omega) hr' fun x hx => hcov x ((hhalves x).mpr (.inr hx))
    have hleft := covers_self p k
    have hright := covers_self (p + 2 ^ k) k
    -- a block that is larger than a half holds both of them
    rcases lt_or_ge k i with hlt | hik
    · exact ⟨_, hq, hlt, fun x => covers_of_common hp (h.aligned _ hq) hlt
        ((hhalves p).mpr (.inl hleft)) (hqx p hleft)⟩
    rcases lt_or_ge k j with hlt | hjk
    · exact ⟨_, hr, hlt, fun x => covers_of_common hp (h.aligned _ hr) hlt
        ((hhalves _).mpr (.inr hright)) (hrx _ hright)⟩
    -- otherwise the family holds the two halves
    obtain rfl : i = k := le_antisymm hik hki
    obtain rfl : j = i := le_antisymm hjk hkj
    obtain rfl := start_eq_of_common hp' (h.aligned _ hq) hleft (hqx p hleft)
    obtain rfl := start_eq_of_common hr' (h.aligned _ hr) hright (hrx _ hright)
    rw [← xor_two_pow_of_even hp] at hr
    exact absurd hr (h.merged p j hk hq)

lemma Merged.subset_of_union (hF : Merged K F) (hG : Merged K G)
    (hU : ∀ x, Union F x ↔ Union G x) : F ⊆ G := by
  rintro ⟨p, k⟩ hb
  have hal : 2 ^ k ∣ p := hF.aligned _ hb
  obtain ⟨⟨q, j⟩, hc, hkj, hbc⟩ :=
    hG.absorbs (hF.bounded _ hb) hal fun x hx => (hU x).mp ⟨_, hb, hx⟩
  have hal' : 2 ^ j ∣ q := hG.aligned _ hc
  obtain ⟨d, hd, hjd, hcd⟩ :=
    hF.absorbs (hG.bounded _ hc) hal' fun x hx => (hU x).mpr ⟨_, hc, hx⟩
  have hp := covers_self p k
  obtain rfl : (p, k) = d := hF.apart _ hb _ hd p hp (hcd p (hbc p hp))
  obtain rfl : k = j := le_antisymm hkj hjd
  obtain rfl := start_eq_of_common hal hal' hp (hbc p hp)
  exact hc

lemma Merged.unique (hF : Merged K F) (hG : Merged K G)
    (hU : ∀ x, Union F x ↔ Union G x) : F = G :=
  (hF.subset_of_union hG hU).antisymm (hG.subset_of_union hF fun x => (hU x).symm)

/-- A merged family has a block of order at least `k` exactly when it covers an aligned
block of order `k`. -/
lemma Merged.exists_order_iff (h : Merged K F) (hk : k ≤ K) :
    (∃ b ∈ F, k ≤ b.2) ↔ ∃ p, 2 ^ k ∣ p ∧ ∀ x, Covers (p, k) x → Union F x := by
  constructor
  · rintro ⟨⟨q, j⟩, hb, hkj⟩
    have hq : 2 ^ k ∣ q := (pow_dvd_pow 2 hkj).trans (h.aligned _ hb)
    refine ⟨q, hq, fun x hx => ⟨_, hb, ?_⟩⟩
    exact covers_of_common hq (h.aligned _ hb) hkj (covers_self q k) (covers_self q j) hx
  · rintro ⟨p, hp, hcov⟩
    obtain ⟨b, hb, hkb, -⟩ := h.absorbs hk hp hcov
    exact ⟨b, hb, hkb⟩

end Base
