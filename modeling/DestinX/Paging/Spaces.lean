import DestinX.Paging.Reach

/-!
# Several address spaces

Address spaces made by `create_user_process` share the upper half of the PML4 and
have a forest of their own in the lower half. `Touched` says what a call on one of
them may change: tables of its own, its own root at one entry of the lower half,
and frames that it takes into use.
-/

namespace DestinX.Paging

open Base List Option Prod

variable {bound : Nat} {spaces reserved : Set Nat} {m m' m'' : Mem} {own own' own'' : Owner}
  {r l n t i g top vaddr : Nat} {frames : List Nat}

/-! ## What a call may change -/

structure Touched (bound : Nat) (spaces reserved : Set Nat) (r top : Nat) (m m' : Mem)
    (own own' : Owner) : Prop where
  forest : Forest bound spaces reserved m' own'
  mono : ∀ f k, own f = some k → own' f = some k
  same : ∀ f j, 2 ^ 12 ∣ f → j < 512 →
    own' f = none ∨ (∃ r' l n, own f = some (r', l, n) ∧ (r' ≠ r ∨ l = 4 ∧ j ≠ top)) →
    entry m' f j = entry m f j

lemma Touched.trans (h : Touched bound spaces reserved r top m m' own own')
    (h' : Touched bound spaces reserved r top m' m'' own' own'') :
    Touched bound spaces reserved r top m m'' own own'' := by
  refine ⟨h'.forest, fun f k hk => h'.mono f k (h.mono f k hk), ?_⟩
  rintro f j hf hj (hnone | ⟨r', l, n, hk, hne⟩)
  · have hnone' : own' f = none := by
      by_contra hsome
      obtain ⟨k, hk⟩ := ne_none_iff_exists'.mp hsome
      rw [h'.mono f k hk] at hnone
      cases hnone
    rw [h'.same f j hf hj (.inl hnone), h.same f j hf hj (.inl hnone')]
  · rw [h'.same f j hf hj (.inr ⟨r', l, n, h.mono f _ hk, hne⟩),
      h.same f j hf hj (.inr ⟨r', l, n, hk, hne⟩)]

lemma Ensured.touched {key : Nat × Nat × Nat} {user : Bool}
    (e : Ensured bound spaces reserved m m' own own' t i key user g) (ht : own t = some (r, l, n))
    (htop : l = 4 → i = top) : Touched bound spaces reserved r top m m' own own' := by
  refine ⟨e.forest, e.mono, ?_⟩
  rintro f j hf hj (hnone | ⟨r', l', n', hk, hne⟩)
  · have hold : own f = none := by
      by_contra hsome
      obtain ⟨k, hk⟩ := ne_none_iff_exists'.mp hsome
      rw [e.mono f k hk] at hnone
      cases hnone
    refine e.same f j hf hj (hnone.trans hold.symm) ?_
    rintro ⟨rfl, -⟩
    rw [hold] at ht
    cases ht
  · refine e.same f j hf hj ((e.mono f _ hk).trans hk.symm) ?_
    rintro ⟨rfl, rfl⟩
    rw [hk, some.injEq, mk.injEq, mk.injEq] at ht
    omega

section

variable (h : Forest bound spaces reserved m own)
include h

lemma Forest.touched_leaf (ht : own t = some (r, 1, n)) (hi : i < 512) (top e : Nat) :
    Touched bound spaces reserved r top m (setEntry m t i e) own own := by
  refine ⟨h.set_leaf ht hi e, fun _ _ hk => hk, ?_⟩
  rintro f j hf hj hcase
  apply entry_setEntry_of_ne (h.frame t _ _ _ ht).1.aligned hf hi hj
  rintro ⟨rfl, -⟩
  rcases hcase with hnone | ⟨r', l', n', hk, hne⟩
  · rw [hnone] at ht
    cases ht
  · rw [hk, some.injEq, mk.injEq, mk.injEq] at ht
    omega

lemma Forest.touched_map (hr : r ∈ spaces) (hb : pml4Index vaddr < bound)
    (hfresh : Fresh reserved own frames) {flags : Nat} (hsup : MapSupplied m frames r vaddr flags)
    (paddr : Nat) : ∃ own', Touched bound spaces reserved r (pml4Index vaddr) m
      (vmmMapPage m frames r paddr vaddr pageSize4KB flags).1 own own' := by
  obtain ⟨m1, m2, m3, own1, own2, own3, t3, t2, t1, e1, e2, e3, hm⟩ :=
    h.map_page hr hb hfresh hsup paddr
  refine ⟨own3, ?_⟩
  rw [hm]
  have h1 := e1.touched (h.root r hr) (fun _ => rfl)
  have h2 : Touched bound spaces reserved r (pml4Index vaddr) m1 m2 own1 own2 :=
    e2.touched e1.child (fun hl => absurd hl (by norm_num))
  have h3 : Touched bound spaces reserved r (pml4Index vaddr) m2 m3 own2 own3 :=
    e3.touched e2.child (fun hl => absurd hl (by norm_num))
  exact ((h1.trans h2).trans h3).trans (e3.forest.touched_leaf e3.child (index_lt vaddr).2.2.2 _ _)

lemma Forest.touched_unmap (hr : r ∈ spaces) (hb : pml4Index vaddr < bound) :
    Touched bound spaces reserved r (pml4Index vaddr) m (vmmUnmapPage m r vaddr).1 own own := by
  rcases h.get_entry hr hb with ⟨hnone, -⟩ | ⟨g, hg, hsome⟩
  · simp only [vmmUnmapPage, hnone]
    exact ⟨h, fun _ _ hk => hk, fun _ _ _ _ _ => rfl⟩
  · simp only [vmmUnmapPage, hsome]
    exact h.touched_leaf hg (index_lt vaddr).2.2.2 _ _

end

/-! ## A new address space -/

/-- A loop that writes entries of one table, from values that do not change while
the loop runs. -/
lemma foldl_setEntry {f : Mem → Nat → Nat} {v : Nat → Nat} (hv : ∀ i, v i < 2 ^ 64)
    (ht : 2 ^ 12 ∣ t) : ∀ (L : List Nat) (m : Mem), (∀ i ∈ L, i < 512) →
      (∀ m', (∀ t' j, 2 ^ 12 ∣ t' → j < 512 → t' ≠ t → entry m' t' j = entry m t' j) →
        ∀ i ∈ L, f m' i = v i) →
      (∀ t' j, 2 ^ 12 ∣ t' → j < 512 → t' ≠ t →
        entry (L.foldl (fun m i => setEntry m t i (f m i)) m) t' j = entry m t' j) ∧
      ∀ j < 512, entry (L.foldl (fun m i => setEntry m t i (f m i)) m) t j =
        if j ∈ L then v j else entry m t j := by
  intro L
  induction L with
  | nil => exact fun m _ _ => ⟨fun _ _ _ _ _ => rfl, fun _ _ => rfl⟩
  | cons i L ih =>
    intro m hlt hval
    have hi : i < 512 := hlt i (by simp)
    have hfi : f m i = v i := hval m (fun _ _ _ _ _ => rfl) i (by simp)
    have hother : ∀ t' j, 2 ^ 12 ∣ t' → j < 512 → t' ≠ t →
        entry (setEntry m t i (f m i)) t' j = entry m t' j :=
      fun t' j ht' hj hne => entry_setEntry_of_ne ht ht' hi hj (fun hc => hne hc.1)
    obtain ⟨hsame, hset⟩ := ih (setEntry m t i (f m i)) (fun j hj => hlt j (by simp [hj])) (by
      intro m' hm' j hj
      refine hval m' (fun t' j ht' hj hne => ?_) j (by simp [hj])
      rw [hm' t' j ht' hj hne, hother t' j ht' hj hne])
    refine ⟨fun t' j ht' hj hne => ?_, fun j hj => ?_⟩
    · rw [foldl_cons, hsame t' j ht' hj hne, hother t' j ht' hj hne]
    · rw [foldl_cons, hset j hj]
      by_cases hji : j = i
      · subst hji
        rw [entry_setEntry_self (hfi ▸ hv j), hfi]
        simp
      · rw [entry_setEntry_of_ne ht ht hi hj (fun hc => hji hc.2)]
        simp [hji]

lemma newAddressSpace_entries {old new : Nat} (hold : 2 ^ 12 ∣ old) (hnew : 2 ^ 12 ∣ new)
    (hne : old ≠ new) (m : Mem) :
    (∀ t j, 2 ^ 12 ∣ t → j < 512 → t ≠ new → entry (newAddressSpace m old new) t j = entry m t j) ∧
      ∀ j < 512, entry (newAddressSpace m old new) new j =
        if j < 256 then 0 else entry m old j := by
  obtain ⟨hsame1, hset1⟩ := foldl_setEntry (f := fun _ _ => 0) (v := fun _ => 0)
    (fun _ => by norm_num) hnew (List.range 256) m
    (fun i hi => (mem_range.mp hi).trans (by norm_num)) (fun _ _ _ _ => rfl)
  obtain ⟨hsame2, hset2⟩ := foldl_setEntry (f := fun m i => entry m old i)
    (v := fun i => entry m old i) (fun i => entry_lt m old i) hnew (List.range' 256 256)
    ((List.range 256).foldl (fun m i => setEntry m new i 0) m)
    (fun i hi => by rw [mem_range'_1] at hi; omega)
    (fun m' hm' i hi => by
      have hi' : i < 512 := by rw [mem_range'_1] at hi; omega
      rw [hm' old i hold hi' hne, hsame1 old i hold hi' hne])
  refine ⟨fun t j ht hj htn => (hsame2 t j ht hj htn).trans (hsame1 t j ht hj htn), fun j hj => ?_⟩
  rw [newAddressSpace, hset2 j hj, hset1 j hj]
  by_cases hlow : j < 256
  · have hup : ¬ (256 ≤ j ∧ j < 256 + 256) := by omega
    simp only [mem_range'_1, mem_range, hlow, hup, if_true, if_false]
  · have hup : 256 ≤ j ∧ j < 256 + 256 := by omega
    simp only [mem_range'_1, hlow, hup, if_false, and_self, if_true]

end DestinX.Paging
