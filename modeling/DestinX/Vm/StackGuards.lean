import DestinX.Vm.UserStacks

/-!
# Growing stacks

A guard fault of a user thread maps the page below its stack and moves the guard down, until the
guard reaches the lower end. The next stack may begin right there: no page is left between them.
-/

namespace DestinX.Vm

open Base Fs Paging Function Option Nat

/-- The guard is the page below the mapped part of the stack. Pages count from the top. -/
structure StackExact (k : Kernel) (th : UserThread) : Prop where
  guardMin : th.pageGuardMin = sub64 th.pageGuardMax 4096
  bottom : th.stackBottom ≤ th.pageGuardMax
  top : th.pageGuardMax + 4096 ≤ th.stackTop
  mapped : ∀ v, th.stackBottom ≤ v → v < th.stackTop → 4096 ∣ th.stackTop - v →
    (k.pages (k.process th.process).cr3 v ≠ none ↔ th.pageGuardMax ≤ v)

/-- A guard fault of the thread. -/
def GuardFault (t : Nat) (k : Kernel) (va : Nat) (k' : Kernel) : Prop :=
  ∃ th fuel e, k.thread t = some th ∧ th.pageGuardMin ≤ va ∧ va < th.pageGuardMax ∧
    k.pageFaultHandler fuel t va = some (k', e)

/-- The guard faults of a thread since its creation. -/
def growthMachine (t : Nat) (k : Kernel) : Machine Kernel Nat := ⟨(· = k), GuardFault t⟩

/-- The next guard fault maps the page directly below, or ends the thread at the lower end. -/
def GrowsExactly (t : Nat) (k : Kernel) : Prop :=
  ∃ th, k.thread t = some th ∧ StackExact k th ∧
    ∀ fuel va, th.pageGuardMin ≤ va → va < th.pageGuardMax →
      if th.pageGuardMax = th.stackBottom then k.pageFaultHandler fuel t va = some (k, .exits)
      else ∃ k', k.pageFaultHandler fuel t va =
          some (k', .mapped (th.pageGuardMax - 4096) (pteWritable ||| pteUser)) ∧
        ∀ c v, k'.pages c v ≠ k.pages c v ↔
          c = (k.process th.process).cr3 ∧ v = th.pageGuardMax - 4096

/-- The upper end that `us_add_to_list` chooses for a new area. -/
def newTop (s : AreaList) (fuel size : Nat) (block : Nat × VmArea) : Option Nat :=
  (addToList userStackMax fuel (s.assign block.1 fun _ => { block.2 with size := size })
    block.1).map fun s' => (s'.area block.1).base

/-- Where the stack will lie it does not wrap around, and no page of it but the first is mapped. -/
def StackClear (k : Kernel) (p fuel size : Nat) (block : Nat × VmArea) : Prop :=
  ∃ top, newTop (k.process p).ustacks fuel size block = some top ∧ size ≤ top ∧
    ∀ v, top - size ≤ v → v + 4096 < top → 4096 ∣ top - v → k.pages (k.process p).cr3 v = none

variable {k k₀ k' : Kernel} {th : UserThread} {garbage : VmArea} {s s' : AreaList}
  {block : Option (Nat × VmArea)} {fuel start i p t va size : Nat}

/-! ## One fault -/

lemma guardFault_eq (hth : k.thread t = some th) (hmin : th.pageGuardMin ≤ va)
    (hmax : va < th.pageGuardMax) :
    k.pageFaultHandler fuel t va = if th.pageGuardMax = th.stackBottom then some (k, .exits)
      else some (k.expandStack t th, .mapped th.pageGuardMin (pteWritable ||| pteUser)) := by
  rw [Kernel.pageFaultHandler, hth, bind_some]
  rw [if_pos ⟨hmax, hmin⟩]
  by_cases hend : th.pageGuardMax = th.stackBottom
  · rw [if_neg (not_not.mpr hend), if_pos hend]
  · rw [if_pos hend, if_neg hend]

/-- The stack is whole pages down to the guard and from there to the lower end. -/
structure StackKept (t : Nat) (k : Kernel) (th : UserThread) : Prop where
  thread : k.thread t = some th
  exact : StackExact k th
  word : th.stackTop < 2 ^ 64
  above : 4096 ∣ th.stackTop - th.pageGuardMax
  below : 4096 ∣ th.pageGuardMax - th.stackBottom

section

variable (h : StackKept t k th)
include h

lemma StackKept.guard (hend : th.pageGuardMax ≠ th.stackBottom) :
    th.pageGuardMin = th.pageGuardMax - 4096 ∧ th.stackBottom + 4096 ≤ th.pageGuardMax := by
  have hbottom := h.exact.bottom
  have htop := h.exact.top
  have hword := h.word
  have hbelow := h.below
  rw [h.exact.guardMin, sub64]
  omega

lemma StackKept.expand (hend : th.pageGuardMax ≠ th.stackBottom) :
    ∃ th', StackKept t (k.expandStack t th) th' := by
  obtain ⟨hmin, hroom⟩ := h.guard hend
  have htop := h.exact.top
  have habove := h.above
  have hbelow := h.below
  have hmax : sub64 th.pageGuardMax 4096 = th.pageGuardMax - 4096 :=
    h.exact.guardMin.symm.trans hmin
  refine ⟨_, update_self .., ⟨?_, ?_, ?_, fun v hv hlt hdvd => ?_⟩, h.word, ?_, ?_⟩
  · rw [h.exact.guardMin]
  · dsimp only
    omega
  · dsimp only
    omega
  · have hold := h.exact.mapped v hv hlt hdvd
    dsimp only at hlt hdvd ⊢
    rw [hmax]
    change (if (k.process th.process).cr3 = (k.process th.process).cr3 ∧ v = th.pageGuardMin then _
      else k.pages (k.process th.process).cr3 v) ≠ none ↔ _
    by_cases hpage : v = th.pageGuardMin
    · rw [if_pos ⟨rfl, hpage⟩]
      exact iff_of_true (some_ne_none _) (hpage.trans hmin).ge
    · rw [if_neg fun h => hpage h.2, hold]
      omega
  · dsimp only
    omega
  · dsimp only
    omega

lemma StackKept.step (hstep : GuardFault t k va k') : ∃ th', StackKept t k' th' := by
  obtain ⟨th', fuel, e, hth, hmin, hmax, hcall⟩ := hstep
  cases h.thread.symm.trans hth
  rw [guardFault_eq hth hmin hmax] at hcall
  by_cases hend : th.pageGuardMax = th.stackBottom
  · rw [if_pos hend] at hcall
    cases hcall
    exact ⟨th, h⟩
  · rw [if_neg hend] at hcall
    cases hcall
    exact h.expand hend

lemma StackKept.growsExactly : GrowsExactly t k := by
  refine ⟨th, h.thread, h.exact, fun fuel va hmin hmax => ?_⟩
  rw [guardFault_eq h.thread hmin hmax]
  by_cases hend : th.pageGuardMax = th.stackBottom
  · rw [if_pos hend, if_pos hend]
  · obtain ⟨hpage, hroom⟩ := h.guard hend
    have htop := h.exact.top
    have habove := h.above
    -- the page below the guard was not mapped
    have hnone : k.pages (k.process th.process).cr3 th.pageGuardMin = none := by
      by_contra hmapped
      have := (h.exact.mapped th.pageGuardMin (by omega) (by omega) (by omega)).mp hmapped
      omega
    rw [if_neg hend, if_neg hend, ← hpage]
    refine ⟨_, rfl, fun c v => ?_⟩
    change (if c = (k.process th.process).cr3 ∧ v = th.pageGuardMin then _ else k.pages c v) ≠
      k.pages c v ↔ _
    by_cases hat : c = (k.process th.process).cr3 ∧ v = th.pageGuardMin
    · rw [if_pos hat, hat.1, hat.2, hnone]
      exact iff_of_true (some_ne_none _) ⟨rfl, rfl⟩
    · rw [if_neg hat]
      exact iff_of_false (not_not.mpr rfl) hat

end

/-! ## New threads -/

lemma addToList_base_lt (hstart : start < 2 ^ 64) (hadd : addToList start fuel s i = some s') :
    (s'.area i).base < 2 ^ 64 := by
  rw [addToList] at hadd
  cases hhead : s.head with
  | none =>
    rw [hhead] at hadd
    cases hadd
    rw [(first_inserted s i start).bounds.1]
    exact hstart
  | some h =>
    rw [hhead] at hadd
    obtain ⟨gap, -, rfl⟩ := map_eq_some_iff.mp hadd
    rw [insertBetween_eq, VmArea.base_of_unlinked (placeBetween_self ..)]
    exact mod_lt _ (by norm_num)

/-- Stack growth is exact over every sequence of guard faults exactly when the new stack does not
wrap around and is clear. -/
theorem stack_growth_exact_iff (hpos : 0 < size) (hpages : 4096 ∣ size) (hsize : size < 2 ^ 64)
    (hcall : k.createUserThread fuel p t size (some (i, garbage)) = some k₀) :
    (∀ k', (growthMachine t k₀).Reached (fun _ _ => True) k' → GrowsExactly t k') ↔
      StackClear k p fuel size (i, garbage) := by
  obtain ⟨s', hadd, -, hcr3, ⟨f, hmap⟩, th, hthread, rfl, htop, hbottom, hmax, hmin⟩ :=
    createUserThread_some hpos hcall
  have hplace : newTop (k.process th.process).ustacks fuel size (i, garbage) =
      some th.stackTop := by
    rw [newTop, hadd, htop]
    rfl
  have hword := addToList_base_lt (by decide) hadd
  rw [← htop] at hmap hbottom hmax hword
  simp only [sub64] at hbottom hmax
  constructor
  · intro hgrows
    obtain ⟨th', hth', hexact, -⟩ := hgrows k₀ (.start rfl)
    rw [hthread, update_self] at hth'
    cases hth'
    have hlow := hexact.bottom
    have hhigh := hexact.top
    refine ⟨th.stackTop, hplace, by omega, fun v hv hlt hdvd => ?_⟩
    have hmapped := (hexact.mapped v (by omega) (by omega) hdvd).not.mpr (by omega)
    rw [not_not, hcr3, hmap] at hmapped
    dsimp only at hmapped
    rwa [if_neg] at hmapped
    rintro ⟨-, heq⟩
    rw [sub64] at heq
    omega
  · rintro ⟨top, hplace', hfit, hclear⟩ k' run
    cases hplace.symm.trans hplace'
    have hnew : StackKept t k₀ th := by
      refine ⟨by rw [hthread, update_self], ⟨hmin, by omega, by omega, fun v hv hlt hdvd => ?_⟩,
        hword, by omega, by omega⟩
      rw [hcr3, hmap]
      dsimp only
      by_cases hpage : v = sub64 th.stackTop 4096
      · rw [if_pos ⟨rfl, hpage⟩]
        rw [sub64] at hpage
        exact iff_of_true (some_ne_none _) (by omega)
      · rw [if_neg fun h => hpage h.2]
        rw [sub64] at hpage
        refine iff_of_false (not_not.mpr (hclear v (by omega) (by omega) hdvd)) (by omega)
    have hstart : ∀ k, k = k₀ → ∃ th', StackKept t k th' := fun _ h => ⟨th, h ▸ hnew⟩
    obtain ⟨_, hkept⟩ := run.invariant hstart fun _ _ _ h _ hstep => h.elim fun _ h => h.step hstep
    exact hkept.growsExactly

theorem stack_growth_exact_two :
    stackKernel.createUserThread 1 0 0 8192 (some (1, blankArea)) = some oneStack ∧
      ∀ k', (growthMachine 0 oneStack).Reached (fun _ _ => True) k' → GrowsExactly 0 k' :=
  ⟨oneStack_eq, (stack_growth_exact_iff (by decide) (by decide) (by decide) oneStack_eq).mpr
    ⟨userStackMax, rfl, by decide, fun _ _ _ _ => rfl⟩⟩

/-- Thread 1, whose area was released with thread 0, goes on growing. Two more frames are free. -/
def lowerGrows : Kernel :=
  (({ upperDestroyed with fs.free := [8192, 12288] }.pageFaultHandler 1 1
    (userStackMax - 16384)).getD (upperDestroyed, .hangs)).1

/-- A new thread gets the same area. -/
def stackReused : Kernel :=
  (lowerGrows.createUserThread 2 0 2 8192 (some (3, blankArea))).getD lowerGrows

/-- The last page of the new stack is mapped before the first fault. -/
theorem stack_growth_inexact :
    lowerGrows.createUserThread 2 0 2 8192 (some (3, blankArea)) = some stackReused ∧
      ¬ GrowsExactly 2 stackReused := by
  refine ⟨by rfl, ?_⟩
  rintro ⟨th, hth, hexact, -⟩
  cases hth
  have hmapped := (hexact.mapped (userStackMax - 16384) (by decide) (by decide) (by decide)).mp
    (by decide +kernel)
  exact absurd hmapped (by decide)

/-! ## Neighbours -/

/-- The page below the stack. -/
def UserThread.below (th : UserThread) : Nat := sub64 th.stackBottom 4096

inductive GuardAction where
  | create (t fuel size : Nat) (block : Option (Nat × VmArea))
  | destroy (t : Nat)
  | grow (t va : Nat)

/-- Threads of process `p` are created with stacks of whole pages, grow and are destroyed. -/
inductive GuardStep (p : Nat) (k : Kernel) : GuardAction → Kernel → Prop
  | create {k' : Kernel} {fuel t size : Nat} {block : Option (Nat × VmArea)}
      (hcall : k.createUserThread fuel p t size block = some k') (hpages : 4096 ∣ size)
      (hsize : size < 2 ^ 64) (ht : k.thread t = none) :
      GuardStep p k (.create t fuel size block) k'
  | destroy {k' : Kernel} {fuel t : Nat} {th : UserThread} (hth : k.thread t = some th)
      (hp : th.process = p) (hcall : k.destroyThread fuel t = some k') :
      GuardStep p k (.destroy t) k'
  | grow {k' : Kernel} {t va : Nat} {th : UserThread} (hth : k.thread t = some th)
      (hp : th.process = p) (hfault : GuardFault t k va k') : GuardStep p k (.grow t va) k'

def guardMachine (p : Nat) : Machine Kernel GuardAction :=
  ⟨fun k => ∀ t th, k.thread t = some th → th.process ≠ p, GuardStep p⟩

/-- The page below each stack is not mapped and belongs to no other stack. -/
def GuardsFree (p : Nat) (k : Kernel) : Prop :=
  ∀ t th, k.thread t = some th → th.process = p → k.pages (k.process p).cr3 th.below = none ∧
    ∀ u w, k.thread u = some w → w.process = p → u ≠ t →
      ¬ (w.stackBottom ≤ th.below ∧ th.below < w.stackTop)

/-- The process has no thread before, and the page below the place of the new stack is free. -/
def CreatedAlone (p : Nat) (k : Kernel) : GuardAction → Prop
  | .create _ fuel size (some block) => size = 0 ∨ (∀ u w, k.thread u = some w → w.process ≠ p) ∧
      ∀ top, newTop (k.process p).ustacks fuel size block = some top →
        k.pages (k.process p).cr3 (sub64 (sub64 top size) 4096) = none
  | _ => True

/-- The process has at most one thread, and the page below its stack is free. -/
structure OneGuard (p : Nat) (k : Kernel) : Prop where
  alone : ∀ t u th w, k.thread t = some th → k.thread u = some w → th.process = p →
    w.process = p → t = u
  guard : ∀ t th, k.thread t = some th → th.process = p →
    th.pageGuardMin = sub64 th.pageGuardMax 4096 ∧ th.stackBottom < 2 ^ 64 ∧
      th.pageGuardMax < 2 ^ 64 ∧ k.pages (k.process p).cr3 th.below = none

lemma OneGuard.free (h : OneGuard p k) : GuardsFree p k := fun t th hth hp =>
  ⟨(h.guard t th hth hp).2.2.2, fun u w hu hw hne => absurd (h.alone u t w th hu hth hw hp) hne⟩

/-- The page that a guard fault maps is never the one below the stack. -/
lemma OneGuard.grow (h : OneGuard p k) (hth : k.thread t = some th) (hp : th.process = p)
    (hfault : GuardFault t k va k') : OneGuard p k' := by
  obtain ⟨th', fuel, e, hth', hlow, hhigh, hcall⟩ := hfault
  cases hth.symm.trans hth'
  rw [guardFault_eq hth hlow hhigh] at hcall
  by_cases hend : th.pageGuardMax = th.stackBottom
  · rw [if_pos hend] at hcall
    cases hcall
    exact h
  rw [if_neg hend] at hcall
  cases hcall
  obtain ⟨hmin, hbottom, hmax, hnone⟩ := h.guard t th hth hp
  have hne : th.below ≠ th.pageGuardMin := by
    rw [hmin, UserThread.below]
    simp only [sub64]
    omega
  have hold : ∀ u w, (k.expandStack t th).thread u = some w → w.process = p → u = t := by
    intro u w hu hw
    rcases update_eq_cases hu with ⟨hut, -⟩ | ⟨-, hu⟩
    · exact hut
    · exact h.alone u t w th hu hth hw hp
  refine ⟨fun u x w y hu hx hw hy => (hold u w hu hw).trans (hold x y hx hy).symm,
    fun u w hu hw => ?_⟩
  obtain rfl := hold u w hu hw
  cases (update_self ..).symm.trans hu
  refine ⟨?_, hbottom, mod_lt _ (by norm_num), ?_⟩
  · rw [← hmin]
  · rw [UserThread.below] at hne hnone ⊢
    exact (if_neg fun heq => hne heq.2).trans hnone

lemma OneGuard.destroy (h : OneGuard p k) (hth : k.thread t = some th) (hp : th.process = p)
    (hcall : k.destroyThread fuel t = some k') : OneGuard p k' := by
  obtain ⟨-, -, hthread, -⟩ := destroyThread_stacks hcall
  have hnone : ∀ u w, k'.thread u = some w → w.process ≠ p := by
    intro u w hu hw
    rw [hthread] at hu
    rcases update_eq_cases hu with ⟨-, heq⟩ | ⟨hut, hu⟩
    · cases heq
    · exact hut (h.alone u t w th hu hth hw hp)
  exact ⟨fun t _ th _ hth _ hp => absurd hp (hnone t th hth), fun t th hth hp =>
    absurd hp (hnone t th hth)⟩

lemma OneGuard.create (h : OneGuard p k) (hsize : size < 2 ^ 64) (ht : k.thread t = none)
    (hcall : k.createUserThread fuel p t size block = some k')
    (hgood : CreatedAlone p k (.create t fuel size block)) : OneGuard p k' := by
  by_cases hfail : size = 0 ∨ block = none
  · obtain ⟨hthread, hpages, hprocess⟩ := createUserThread_fails hfail hcall
    refine ⟨by rw [hthread]; exact h.alone, ?_⟩
    rw [hthread, hpages, (hprocess p).2]
    exact h.guard
  obtain ⟨hzero, hblock⟩ := not_or.mp hfail
  obtain ⟨⟨i, garbage⟩, rfl⟩ := ne_none_iff_exists'.mp hblock
  obtain ⟨s', hadd, -, hcr3, ⟨f, hmap⟩, th, hthread, hp, htop, hbottom, hmax, hmin⟩ :=
    createUserThread_some (pos_of_ne_zero hzero) hcall
  obtain ⟨halone, hplace⟩ := hgood.resolve_left hzero
  have hold : ∀ u w, k'.thread u = some w → w.process = p → u = t ∧ w = th := by
    intro u w hu hw
    rw [hthread] at hu
    rcases update_eq_cases hu with ⟨hut, heq⟩ | ⟨-, hu⟩
    · exact ⟨hut, (some_inj.mp heq).symm⟩
    · exact absurd hw (halone u w hu)
  refine ⟨fun u x w y hu hx hw hy => (hold u w hu hw).1.trans (hold x y hx hy).1.symm,
    fun u w hu hw => ?_⟩
  obtain ⟨rfl, rfl⟩ := hold u w hu hw
  refine ⟨hmin, hbottom ▸ mod_lt _ (by norm_num), hmax ▸ mod_lt _ (by norm_num), ?_⟩
  have hbelow : k.pages (k.process p).cr3 w.below = none := by
    rw [UserThread.below, hbottom]
    exact hplace _ (by rw [newTop, hadd]; rfl)
  rw [hmap, hcr3]
  refine (if_neg ?_).trans hbelow
  rintro ⟨-, heq⟩
  rw [UserThread.below, hbottom] at heq
  simp only [sub64] at heq
  omega

/-- As long as threads are created one after the other, the page below the stack stays free. -/
theorem stack_guards_free (run : (guardMachine p).Reached (CreatedAlone p) k) : GuardsFree p k := by
  have hstart : ∀ k, (guardMachine p).start k → OneGuard p k := fun k hk =>
    ⟨fun t _ th _ hth _ hp => absurd hp (hk t th hth), fun t th hth hp => absurd hp (hk t th hth)⟩
  refine (run.invariant hstart fun k a k' h hgood hstep => ?_).free
  cases hstep with
  | create hcall hpages hsize ht => exact h.create hsize ht hcall hgood
  | destroy hth hp hcall => exact h.destroy hth hp hcall
  | grow hth hp hfault => exact h.grow hth hp hfault

/-- The first thread of a process. -/
lemma oneStack_guards : (guardMachine 0).Reached (CreatedAlone 0) oneStack := by
  have hnone : ∀ t th, stackKernel.thread t = some th → th.process ≠ 0 := fun _ _ h => nomatch h
  refine .step (.start hnone) ?_ (.create oneStack_eq (by decide) (by decide) rfl)
  exact .inr ⟨hnone, fun _ _ => rfl⟩

theorem stack_guards_free_one : GuardsFree 0 oneStack := stack_guards_free oneStack_guards

/-- The second stack begins where the first one ends. -/
theorem second_stack_unguarded : (∃ a, (guardMachine 0).Reached (CreatedAlone 0) oneStack ∧
    GuardStep 0 oneStack a twoStacks) ∧ ¬ GuardsFree 0 twoStacks := by
  refine ⟨⟨_, oneStack_guards, .create twoStacks_eq (by decide) (by decide) rfl⟩, fun hfree => ?_⟩
  exact absurd (hfree 0 _ rfl rfl).1 (by decide +kernel)

end DestinX.Vm
