import Mathlib.Logic.Function.Basic
import Mathlib.Tactic.ByContra

/-!
# Runs with a condition on their steps

For an implementation with a defect, what holds along every run is the property together with
the condition on each step under which the defect does not show. The rule below turns an
invariant into both halves: every state of a run whose steps meet the condition has the
property, and the next step keeps it exactly when it meets the condition as well.
-/

namespace Base

universe u v

structure Machine (S : Type u) (A : Type v) where
  start : S → Prop
  step : S → A → S → Prop

variable {S : Type u} {A : Type v} {M : Machine S A} {good : S → A → Prop}
  {inv safe : S → Prop}

/-- The states that are reached by steps that meet the condition. -/
inductive Machine.Reached (M : Machine S A) (good : S → A → Prop) : S → Prop
  | start {s : S} : M.start s → M.Reached good s
  | step {s s' : S} {a : A} : M.Reached good s → good s a → M.step s a s' → M.Reached good s'

lemma Machine.Reached.invariant {s : S} (run : M.Reached good s) (hstart : ∀ s, M.start s → inv s)
    (hstep : ∀ s a s', inv s → good s a → M.step s a s' → inv s') : inv s := by
  induction run with
  | start h => exact hstart _ h
  | step _ hgood h ih => exact hstep _ _ _ ih hgood h

/-- The property holds along such a run, and the next step keeps it exactly when it
meets the condition. -/
def Machine.SafeExactlyWhen (M : Machine S A) (safe : S → Prop) (good : S → A → Prop) (s : S) :
    Prop :=
  safe s ∧ ∀ a s', M.step s a s' → (safe s' ↔ good s a)

lemma Machine.Reached.safeExactlyWhen {s : S} (run : M.Reached good s)
    (hstart : ∀ s, M.start s → inv s) (hstep : ∀ s a s', inv s → good s a → M.step s a s' → inv s')
    (hsafe : ∀ s, inv s → safe s)
    (hbad : ∀ s a s', inv s → M.step s a s' → ¬ good s a → ¬ safe s') :
    M.SafeExactlyWhen safe good s := by
  have hinv : inv s := run.invariant hstart hstep
  refine ⟨hsafe s hinv, fun a s' h => ⟨fun hs' => ?_, fun hgood => ?_⟩⟩
  · by_contra hno
    exact hbad s a s' hinv h hno hs'
  · exact hsafe s' (hstep s a s' hinv hgood h)

/-- A value of a function that was changed at one place is the new one or an old one. -/
lemma update_eq_cases {α : Type u} {β : Type v} [DecidableEq α] {f : α → β} {a b : α} {x y : β}
    (h : Function.update f a x b = y) : (b = a ∧ x = y) ∨ (b ≠ a ∧ f b = y) := by
  by_cases hb : b = a
  · rw [hb, Function.update_self] at h
    exact .inl ⟨hb, h⟩
  · rw [Function.update_of_ne hb] at h
    exact .inr ⟨hb, h⟩

end Base
