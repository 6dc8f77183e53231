import Mathlib.Data.Nat.Basic
import Mathlib.Data.List.Basic

/-!
# Stacks of words

A stack grows downwards in memory, eight bytes a word. Pushing a list of words puts
them right below the stack pointer, the first one on top, and changes no other word.
-/

namespace Base

open Function List

/-- Memory by words, at addresses that are multiples of eight. -/
abbrev WordMem := Nat → Nat

/-- Push the words one after the other. -/
def pushWords (m : WordMem) (sp : Nat) : List Nat → WordMem
  | [] => m
  | v :: vs => pushWords (update m (sp - 8) v) (sp - 8) vs

variable {m : WordMem} {sp a k : Nat} {vs : List Nat}

lemma pushWords_append (m : WordMem) (sp : Nat) (vs ws : List Nat) :
    pushWords m sp (vs ++ ws) = pushWords (pushWords m sp vs) (sp - 8 * vs.length) ws := by
  induction vs generalizing m sp with
  | nil => rfl
  | cons v vs ih =>
    rw [cons_append, pushWords, ih, length_cons]
    congr 1
    omega

/-- Words at and above the stack pointer, or below the new one, stay. -/
lemma pushWords_outside (hsp : 8 * vs.length ≤ sp) (h : a < sp - 8 * vs.length ∨ sp ≤ a) :
    pushWords m sp vs a = m a := by
  induction vs generalizing m sp with
  | nil => rfl
  | cons v vs ih =>
    rw [length_cons] at hsp h
    rw [pushWords, ih (by omega) (by omega), update_of_ne (by omega)]

lemma pushWords_get (hsp : 8 * vs.length ≤ sp) (hk : k < vs.length) :
    pushWords m sp vs (sp - 8 * (k + 1)) = vs[k] := by
  induction vs generalizing m sp k with
  | nil => exact absurd hk (Nat.not_lt_zero k)
  | cons v vs ih =>
    rw [length_cons] at hsp hk
    rw [pushWords]
    cases k with
    | zero =>
      rw [pushWords_outside (by omega) (by omega), update_self, getElem_cons_zero]
    | succ k =>
      rw [show sp - 8 * (k + 1 + 1) = sp - 8 - 8 * (k + 1) by omega, ih (by omega) (by omega),
        getElem_cons_succ]

end Base
