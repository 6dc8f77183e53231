import DestinX.Paging.Refinement
import DestinX.Paging.Spaces

/-!
# Isolation of address spaces

The PML4 that runs at boot is arbitrary. Every process starts with a copy of its upper half and
an empty lower half. The tables of the upper half stay as they were at boot, and each process
keeps a forest of its own.
-/

namespace DestinX.Paging

open Base Function List Option

/-- The PML4 of the kernel or of a process. -/
def IsRoot (boot : Nat) (spaces : List Nat) (r : Nat) : Prop := r = boot ∨ r ∈ spaces

/-- A root, or a table that some root reaches through either half. -/
def FrameInUse (m : Mem) (boot : Nat) (spaces : List Nat) (f : Nat) : Prop :=
  ∃ r, IsRoot boot spaces r ∧ (f = r ∨ ∃ l, TableBehind m Set.univ r l f)

/-- A call on a user-half address of `r`, with an allocator whose frames are not
in use and which does not fail. -/
def PageOp.UserAllowed (m : Mem) (boot : Nat) (spaces : List Nat) (r : Nat) : PageOp → Prop
  | .map _ vaddr flags frames =>
    pml4Index vaddr < 256 ∧ frames.Nodup ∧
      (∀ f ∈ frames, Frame f ∧ ¬ FrameInUse m boot spaces f) ∧ MapSupplied m frames r vaddr flags
  | .unmap vaddr => pml4Index vaddr < 256

/-- The processes and the memory after any sequence of address-space constructions,
from whichever PML4 is running, and of calls on user-half addresses. -/
inductive SpaceRun (m₀ : Mem) (boot : Nat) : List Nat → Mem → Prop
  | boot (hf : Frame boot) : SpaceRun m₀ boot [] m₀
  | create {spaces : List Nat} {m : Mem} {old new : Nat} (run : SpaceRun m₀ boot spaces m)
      (hold : IsRoot boot spaces old) (hnew : Frame new)
      (hunused : ¬ FrameInUse m boot spaces new) :
      SpaceRun m₀ boot (new :: spaces) (newAddressSpace m old new)
  | call {spaces : List Nat} {m : Mem} {r : Nat} {op : PageOp} (run : SpaceRun m₀ boot spaces m)
      (hr : r ∈ spaces) (hallowed : op.UserAllowed m boot spaces r) :
      SpaceRun m₀ boot spaces (op.run r m)

/-- The tables of the kernel: everything that the PML4 of the boot reaches. -/
def kernelTables (m₀ : Mem) (boot : Nat) : Set Nat :=
  {t | t = boot ∨ ∃ l, TableBehind m₀ Set.univ boot l t}

/-- The lower halves are a forest beside the kernel's tables, which never change,
and the upper halves are copies of the kernel's. -/
structure SpaceInv (m₀ : Mem) (boot : Nat) (spaces : List Nat) (m : Mem) (own : Owner) : Prop where
  frame : Frame boot
  forest : Forest 256 {r | r ∈ spaces} (kernelTables m₀ boot) m own
  kernel : ∀ t ∈ kernelTables m₀ boot, ∀ i < 512, entry m t i = entry m₀ t i
  upper : ∀ r ∈ spaces, ∀ i < 512, 256 ≤ i → entry m r i = entry m₀ boot i

variable {m₀ m m' : Mem} {boot r r' l t vaddr : Nat} {spaces : List Nat} {own own' : Owner}
  {op : PageOp}

/-! ## The invariant -/

lemma kernelTables_aligned (hf : Frame boot) (ht : t ∈ kernelTables m₀ boot) : 2 ^ 12 ∣ t := by
  rcases ht with rfl | ⟨l, hl⟩
  · exact hf.aligned
  · exact hl.aligned

section

variable (h : SpaceInv m₀ boot spaces m own)
include h

lemma SpaceInv.root_frame (hr : IsRoot boot spaces r) : Frame r := by
  rcases hr with rfl | hr
  · exact h.frame
  · exact (h.forest.frame r _ _ _ (h.forest.root r hr)).1

/-- The kernel still reaches the tables it reached at boot. -/
lemma SpaceInv.behind_boot : TableBehind m Set.univ boot l t ↔ TableBehind m₀ Set.univ boot l t :=
  TableBehind.congr (fun i hi _ => h.kernel boot (.inl rfl) i hi)
    (fun l t i ht hi => h.kernel t (.inr ⟨l, ht⟩) i hi)

/-- Through the upper half a process reaches tables of the kernel only. -/
lemma SpaceInv.behind_upper (hr : IsRoot boot spaces r) (ht : TableBehind m (Set.Ici 256) r l t) :
    t ∈ kernelTables m₀ boot := by
  have hroot : ∀ i < 512, i ∈ Set.Ici 256 → entry m r i = entry m₀ boot i := by
    intro i hi hup
    rcases hr with rfl | hr
    · exact h.kernel _ (.inl rfl) i hi
    · exact h.upper r hr i hi hup
  have ht' := (TableBehind.congr hroot fun l t i ht hi =>
    h.kernel t (.inr ⟨l, ht.mono (Set.subset_univ _)⟩) i hi).mp ht
  exact .inr ⟨l, ht'.mono (Set.subset_univ _)⟩

lemma SpaceInv.fresh {frames : List Nat} (hnodup : frames.Nodup)
    (hframes : ∀ f ∈ frames, Frame f ∧ ¬ FrameInUse m boot spaces f) :
    Fresh (kernelTables m₀ boot) own frames := by
  refine h.forest.fresh hnodup (fun f hf => (hframes f hf).1) ?_ ?_ ?_
  · rintro f hf (rfl | ⟨l, hl⟩)
    · exact (hframes _ hf).2 ⟨_, .inl rfl, .inl rfl⟩
    · exact (hframes f hf).2 ⟨boot, .inl rfl, .inr ⟨l, h.behind_boot.mpr hl⟩⟩
  · exact fun f hf hr => (hframes f hf).2 ⟨f, .inr hr, .inl rfl⟩
  · exact fun f hf r hr l hl =>
      (hframes f hf).2 ⟨r, .inr hr, .inr ⟨l, hl.mono (Set.subset_univ _)⟩⟩

end

lemma spaceInv_boot (hf : Frame boot) : SpaceInv m₀ boot [] m₀ fun _ => none := by
  refine ⟨hf, ⟨?_, ?_, ?_, ?_, ?_, ?_⟩, fun _ _ _ _ => rfl, by simp⟩
  · intro r hr
    cases hr
  all_goals
    intro f r l n h
    cases h

/-! ## One step -/

/-- Tables of the kernel are never owned, so no call changes them. -/
lemma Touched.kernel {top : Nat} (hframe : Frame boot)
    (h : Touched 256 {r | r ∈ spaces} (kernelTables m₀ boot) r top m m' own own')
    (ht : t ∈ kernelTables m₀ boot) {i : Nat} (hi : i < 512) : entry m' t i = entry m t i := by
  apply h.same t i (kernelTables_aligned hframe ht) hi
  left
  by_contra hsome
  obtain ⟨⟨r', l, n⟩, hk⟩ := ne_none_iff_exists'.mp hsome
  exact (h.forest.frame t r' l n hk).2 ht

section

variable (h : SpaceInv m₀ boot spaces m own) (hr : r ∈ spaces)
  (hallowed : op.UserAllowed m boot spaces r)
include h hr hallowed

lemma SpaceInv.touched : ∃ top own', top < 256 ∧
      Touched 256 {r | r ∈ spaces} (kernelTables m₀ boot) r top m (op.run r m) own own' := by
  cases op with
  | map paddr vaddr flags frames =>
    obtain ⟨hv, hnodup, hframes, hsup⟩ := hallowed
    obtain ⟨own', h'⟩ := h.forest.touched_map hr hv (h.fresh hnodup hframes) hsup paddr
    exact ⟨_, own', hv, h'⟩
  | unmap vaddr => exact ⟨_, own, hallowed, h.forest.touched_unmap hr hallowed⟩

lemma SpaceInv.call : ∃ own', SpaceInv m₀ boot spaces (op.run r m) own' := by
  obtain ⟨top, own', htop, h'⟩ := h.touched hr hallowed
  refine ⟨own', h.frame, h'.forest, ?_, ?_⟩
  · intro t ht i hi
    rw [h'.kernel h.frame ht hi, h.kernel t ht i hi]
  · intro r' hr' i hi hup
    have hroot := h.forest.root r' hr'
    rw [h'.same r' i (h.root_frame (.inr hr')).aligned hi
      (.inr ⟨r', 4, 0, hroot, .inr ⟨rfl, by omega⟩⟩), h.upper r' hr' i hi hup]

/-- A call on `r` is not visible in the translations of other address spaces, nor
in the upper half of its own. -/
lemma SpaceInv.walk_call (hr' : IsRoot boot spaces r')
    (hother : r' ≠ r ∨ 256 ≤ pml4Index vaddr) : walk (op.run r m) r' vaddr = walk m r' vaddr := by
  obtain ⟨top, own', htop, h'⟩ := h.touched hr hallowed
  have hidx := (index_lt vaddr).1
  rcases hr' with rfl | hr'
  · exact walk_congr Set.univ (Set.mem_univ _) (h'.kernel h.frame (.inl rfl) hidx)
      (fun l t i ht hi => h'.kernel h.frame (.inr ⟨l, h.behind_boot.mp ht⟩) hi)
  · have hroot := h.forest.root r' hr'
    have halign := (h.root_frame (.inr hr')).aligned
    by_cases hup : 256 ≤ pml4Index vaddr
    · refine walk_congr (Set.Ici 256) hup ?_ ?_
      · exact h'.same r' _ halign hidx (.inr ⟨r', 4, 0, hroot, .inr ⟨rfl, by omega⟩⟩)
      · exact fun l t i ht hi => h'.kernel h.frame (h.behind_upper (.inr hr') ht) hi
    · have hne : r' ≠ r := hother.resolve_right hup
      refine walk_congr (Set.Iio 256) (Nat.lt_of_not_le hup) ?_ ?_
      · exact h'.same r' _ halign hidx (.inr ⟨r', 4, 0, hroot, .inl hne⟩)
      · intro l t i ht hi
        obtain ⟨n, hn⟩ := h.forest.owned_of_behind hr' ht
        exact h'.same t i ht.aligned hi (.inr ⟨r', l, n, hn, .inl hne⟩)

end

lemma SpaceInv.create (h : SpaceInv m₀ boot spaces m own) {old new : Nat}
    (hold : IsRoot boot spaces old) (hnew : Frame new) (hunused : ¬ FrameInUse m boot spaces new) :
    ∃ own', SpaceInv m₀ boot (new :: spaces) (newAddressSpace m old new) own' := by
  have hfresh := h.fresh (nodup_singleton new) (by simpa using ⟨hnew, hunused⟩)
  obtain ⟨hnone, hres⟩ := hfresh.unused new (by simp)
  have hne : old ≠ new := fun he => hunused ⟨old, hold, .inl he.symm⟩
  obtain ⟨hsame, hset⟩ := newAddressSpace_entries (h.root_frame hold).aligned hnew.aligned hne m
  have hnew' : ∀ {f k}, own f = some k → f ≠ new := by
    rintro f k hk rfl
    rw [hnone] at hk
    cases hk
  have hmono : ∀ {f k}, own f = some k → update own new (some (new, 4, 0)) f = some k :=
    fun hk => (update_of_ne (hnew' hk) _ _).trans hk
  have hcases : ∀ {f k}, update own new (some (new, 4, 0)) f = some k →
      (f = new ∧ k = (new, 4, 0)) ∨ own f = some k := by
    intro f k hk
    by_cases hf : f = new
    · subst hf
      rw [update_self] at hk
      exact .inl ⟨rfl, (some.inj hk).symm⟩
    · exact .inr (by rwa [update_of_ne hf] at hk)
  have hent : ∀ {f r' l' n' j}, own f = some (r', l', n') → j < 512 →
      entry (newAddressSpace m old new) f j = entry m f j := fun hk hj =>
    hsame _ _ (h.forest.frame _ _ _ _ hk).1.aligned hj (hnew' hk)
  refine ⟨update own new (some (new, 4, 0)), h.frame, ⟨?_, ?_, ?_, ?_, ?_, ?_⟩, ?_, ?_⟩
  · intro r' hr'
    rcases mem_cons.mp hr' with rfl | hr'
    · exact update_self _ _ _
    · exact hmono (h.forest.root r' hr')
  · intro f r' l' n' hk
    rcases hcases hk with ⟨rfl, -⟩ | hk
    · exact ⟨hnew, hres⟩
    · exact h.forest.frame f r' l' n' hk
  · intro f r' l' n' hk
    rcases hcases hk with ⟨rfl, hk⟩ | hk
    · cases hk
      simp
    · exact h.forest.level f r' l' n' hk
  · intro f r' l' n' hk
    rcases hcases hk with ⟨-, hk⟩ | hk
    · cases hk
      exact mem_cons_self
    · exact mem_cons_of_mem _ (h.forest.space f r' l' n' hk)
  · intro f r' l' n' hk hl' i hi hb
    rcases hcases hk with ⟨rfl, hk⟩ | hk
    · obtain ⟨-, hk⟩ := Prod.mk.inj hk
      have hl3 : l' = 3 := by
        have := (Prod.mk.inj hk).1
        omega
      exact .inl (by rw [hset i hi, if_pos (hb hl3)])
    · rw [hent hk hi]
      exact (h.forest.entries f r' l' n' hk hl' i hi hb).imp_right
        fun ⟨g, u, hg, he⟩ => ⟨g, u, hmono hg, he⟩
  · intro g r' l' n' hk hl'
    rcases hcases hk with ⟨-, hk⟩ | hk
    · cases hk
      omega
    · obtain ⟨t', u, ht', he⟩ := h.forest.linked g r' l' n' hk hl'
      exact ⟨t', u, hmono ht', by rw [hent ht' (Nat.mod_lt _ (by norm_num)), he]⟩
  · intro t ht i hi
    rw [hsame t i (kernelTables_aligned h.frame ht) hi (fun he => hres (he ▸ ht)),
      h.kernel t ht i hi]
  · intro r' hr' i hi hup
    rcases mem_cons.mp hr' with rfl | hr'
    · rw [hset i hi, if_neg (by omega)]
      rcases hold with rfl | hold
      · exact h.kernel _ (.inl rfl) i hi
      · exact h.upper old hold i hi hup
    · rw [hent (h.forest.root r' hr') hi, h.upper r' hr' i hi hup]

lemma SpaceRun.inv (run : SpaceRun m₀ boot spaces m) : ∃ own, SpaceInv m₀ boot spaces m own := by
  induction run with
  | boot hf => exact ⟨_, spaceInv_boot hf⟩
  | create _ hold hnew hunused ih =>
    obtain ⟨own, h⟩ := ih
    exact h.create hold hnew hunused
  | call _ hr hallowed ih =>
    obtain ⟨own, h⟩ := ih
    exact h.call hr hallowed

/-! ## Isolation -/

/-- Address spaces are isolated, after any sequence of constructions and calls. A
call on a user-half address of one process changes no translation of any other
process or of the kernel, and no kernel-half translation at all. The tables behind
the lower half of a process are shared neither with the lower half of another one
nor with an upper half. -/
theorem address_spaces_isolated (run : SpaceRun m₀ boot spaces m) :
    (∀ r ∈ spaces, ∀ op : PageOp, op.UserAllowed m boot spaces r →
      ∀ r', IsRoot boot spaces r' → ∀ vaddr, r' ≠ r ∨ 256 ≤ pml4Index vaddr →
        walk (op.run r m) r' vaddr = walk m r' vaddr) ∧
    (∀ r ∈ spaces, ∀ r', IsRoot boot spaces r' → r' ≠ r → ∀ l l' t,
      TableBehind m (Set.Iio 256) r l t → ¬ TableBehind m (Set.Iio 256) r' l' t) ∧
    (∀ r ∈ spaces, ∀ r', IsRoot boot spaces r' → ∀ l l' t,
      TableBehind m (Set.Iio 256) r l t → ¬ TableBehind m (Set.Ici 256) r' l' t) := by
  obtain ⟨own, h⟩ := run.inv
  refine ⟨fun r hr op hallowed r' hr' vaddr hother => h.walk_call hr hallowed hr' hother, ?_, ?_⟩
  · intro r hr r' hr' hne l l' t ht ht'
    obtain ⟨n, hn⟩ := h.forest.owned_of_behind hr ht
    rcases hr' with rfl | hr'
    · exact (h.forest.frame t _ _ _ hn).2
        (.inr ⟨l', h.behind_boot.mp (ht'.mono (Set.subset_univ _))⟩)
    · obtain ⟨n', hn'⟩ := h.forest.owned_of_behind hr' ht'
      rw [hn, some.injEq, Prod.mk.injEq] at hn'
      exact hne hn'.1.symm
  · intro r hr r' hr' l l' t ht ht'
    obtain ⟨n, hn⟩ := h.forest.owned_of_behind hr ht
    exact (h.forest.frame t _ _ _ hn).2 (h.behind_upper hr' ht')

/-- A process created over an empty PML4 maps a user page: the kernel does not see it. -/
theorem address_spaces_isolated_one_process :
    walk ((PageOp.map 0x9000 0x7000 6 [0x3000, 0x4000, 0x5000]).run 0x2000
        (newAddressSpace (fun _ => 0) 0x1000 0x2000)) 0x1000 0x7123 =
      walk (newAddressSpace (fun _ => 0) 0x1000 0x2000) 0x1000 0x7123 := by
  have hzero : ∀ t i, entry (fun _ => 0) t i = 0 := fun t i => load64_eq_zero fun _ _ _ => rfl
  have hunused : ¬ FrameInUse (fun _ => 0) 0x1000 [] 0x2000 := by
    rintro ⟨r, hr, rfl | ⟨l, hl⟩⟩
    · simp [IsRoot] at hr
    · exact not_tableBehind_of_empty (fun i _ => hzero r i) hl
  have run : SpaceRun (fun _ => 0) 0x1000 [0x2000] (newAddressSpace (fun _ => 0) 0x1000 0x2000) :=
    (SpaceRun.boot ⟨by decide, by decide⟩).create (.inl rfl) ⟨by decide, by decide⟩ hunused
  obtain ⟨hsame, hset⟩ := newAddressSpace_entries (show 2 ^ 12 ∣ 0x1000 by decide)
    (show 2 ^ 12 ∣ 0x2000 by decide) (by decide) (fun _ => 0)
  have hempty : ∀ r, IsRoot 0x1000 [0x2000] r → ∀ i < 512,
      entry (newAddressSpace (fun _ => 0) 0x1000 0x2000) r i = 0 := by
    rintro r (rfl | hr) i hi
    · rw [hsame _ i (by decide) hi (by decide), hzero]
    · rw [mem_singleton.mp hr, hset i hi, hzero, ite_self]
  refine (address_spaces_isolated run).1 0x2000 (by simp) _ ?_ 0x1000 (.inl rfl) _
    (.inl (by decide))
  refine ⟨by decide, by decide, fun f hf => ⟨?_, ?_⟩, mapSupplied_of_length (by decide) _ _ _ _⟩
  · simp only [mem_cons, not_mem_nil, or_false] at hf
    rcases hf with rfl | rfl | rfl <;> exact ⟨by decide, by decide⟩
  · rintro ⟨r, hr, rfl | ⟨l, hl⟩⟩
    · simp only [IsRoot, mem_cons, not_mem_nil, or_false] at hf hr
      omega
    · exact not_tableBehind_of_empty (hempty r hr) hl

end DestinX.Paging
