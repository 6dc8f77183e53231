import DestinX.Base.Memory

/-!
# Sequences of byte copies

A copy goes from low to high addresses, so its source and its destination may overlap. When no
destination of a sequence meets a source, every byte afterwards is the byte that was there, or
the one that a copy names for it.
-/

namespace Base

open Function List

/-- Copy `n` bytes from `s` to `d`, upwards. -/
def copyBytes : Nat → Mem → Nat → Nat → Mem
  | 0, m, _, _ => m
  | n + 1, m, d, s => copyBytes n (update m d (m s)) (d + 1) (s + 1)

structure Copy where
  (dst src len : Nat)
  deriving DecidableEq, Repr

/-- The copy writes to address `x`. -/
def Copy.Covers (c : Copy) (x : Nat) : Prop := c.dst ≤ x ∧ x < c.dst + c.len

def runCopies (m : Mem) (cs : List Copy) : Mem :=
  cs.foldl (fun m c => copyBytes c.len m c.dst c.src) m

variable {m : Mem} {n d s x : Nat} {cs : List Copy}

lemma copyBytes_outside (h : x < d ∨ d + n ≤ x) : copyBytes n m d s x = m x := by
  induction n generalizing m d s with
  | zero => rfl
  | succ n ih =>
    rw [copyBytes, ih (by omega), update_of_ne (by omega)]

/-- The ranges may overlap when the copy moves bytes down. -/
lemma copyBytes_inside (ha : d ≤ s ∨ Apart d n s n) (h : d ≤ x) (h' : x < d + n) :
    copyBytes n m d s x = m (s + (x - d)) := by
  induction n generalizing m d s with
  | zero => omega
  | succ n ih =>
    simp only [Apart] at ha ih
    rw [copyBytes]
    by_cases hx : x = d
    · subst hx
      rw [copyBytes_outside (by omega), update_self, Nat.sub_self, Nat.add_zero]
    · rw [ih (by omega) (by omega) (by omega), update_of_ne (by omega)]
      congr 1
      omega

lemma runCopies_outside (h : ∀ c ∈ cs, ¬ c.Covers x) : runCopies m cs x = m x := by
  induction cs generalizing m with
  | nil => rfl
  | cons c cs ih =>
    have hc := h c mem_cons_self
    simp only [Copy.Covers] at hc
    refine (ih fun c' hc' => h c' (mem_cons_of_mem c hc')).trans ?_
    exact copyBytes_outside (by omega)

/-- Where a byte comes from when no destination meets a source. -/
lemma runCopies_source (h : ∀ c ∈ cs, ∀ c' ∈ cs, Apart c.dst c.len c'.src c'.len) (x : Nat) :
    (runCopies m cs x = m x ∧ ∀ c ∈ cs, ¬ c.Covers x) ∨
      ∃ c ∈ cs, c.Covers x ∧ runCopies m cs x = m (c.src + (x - c.dst)) := by
  induction cs generalizing m with
  | nil => exact .inl ⟨rfl, by simp⟩
  | cons c cs ih =>
    have hsub : ∀ c1 ∈ cs, ∀ c2 ∈ cs, Apart c1.dst c1.len c2.src c2.len := fun c1 h1 c2 h2 =>
      h c1 (mem_cons_of_mem c h1) c2 (mem_cons_of_mem c h2)
    rcases ih hsub (m := copyBytes c.len m c.dst c.src) with ⟨hx, hnone⟩ | ⟨c', hc', hcov, hx⟩
    · by_cases hcov : c.Covers x
      · refine .inr ⟨c, mem_cons_self, hcov, hx.trans ?_⟩
        exact copyBytes_inside (.inr (h c mem_cons_self c mem_cons_self)) hcov.1 hcov.2
      · refine .inl ⟨hx.trans (copyBytes_outside ?_), ?_⟩
        · simp only [Copy.Covers] at hcov
          omega
        · intro c' hc'
          rcases mem_cons.mp hc' with rfl | hc'
          · exact hcov
          · exact hnone c' hc'
    -- the first copy does not write to the source of a later one
    · refine .inr ⟨c', mem_cons_of_mem c hc', hcov, hx.trans (copyBytes_outside ?_)⟩
      have ha := h c mem_cons_self c' (mem_cons_of_mem c hc')
      simp only [Apart, Copy.Covers] at ha hcov
      omega

end Base
