import DestinX.Paging.Leaves

/-!
# Page tables refine a finite map

Starting from an empty PML4, the tables that any sequence of `vmm_map_page` and
`vmm_unmap_page` leaves translate exactly the pages mapped last, with the rights
of their flags. The frames that `pmm_alloc_page` hands out only have to be unused
as tables; everything else in memory is arbitrary.
-/

namespace DestinX.Paging

open Base Function List Option Nat

/-- The calls on one address space. `frames` are the frames that the calls of
`pmm_alloc_page` return. -/
inductive PageOp where
  | map (paddr vaddr flags : Nat) (frames : List Nat)
  | unmap (vaddr : Nat)

def PageOp.run (pml4 : Nat) : PageOp → Mem → Mem
  | .map paddr vaddr flags frames, m => (vmmMapPage m frames pml4 paddr vaddr pageSize4KB flags).1
  | .unmap vaddr, m => (vmmUnmapPage m pml4 vaddr).1

/-- The abstract effect of a call: the page is mapped to `paddr` or not mapped. -/
def PageOp.apply : PageOp → PageMap → PageMap
  | .map paddr vaddr flags _, pages =>
    update pages (pageNumber vaddr) (some (paddr, flags))
  | .unmap vaddr, pages => update pages (pageNumber vaddr) none

/-- The root of the address space or a table that is reached from it. -/
def TableInUse (m : Mem) (pml4 f : Nat) : Prop :=
  f = pml4 ∨ ∃ l, TableBehind m (Set.Iio 512) pml4 l f

/-- The promises of the callers: 4 KiB frames, the four flags, and an allocator
whose frames are not in use and which does not fail. -/
def PageOp.Allowed (m : Mem) (pml4 : Nat) : PageOp → Prop
  | .map paddr vaddr flags frames =>
    Frame paddr ∧ MapFlags flags ∧ frames.Nodup ∧
      (∀ f ∈ frames, Frame f ∧ ¬ TableInUse m pml4 f) ∧ MapSupplied m frames pml4 vaddr flags
  | .unmap _ => True

/-- The memory after a sequence of calls, the last call first. -/
inductive PageRun (pml4 : Nat) : List PageOp → Mem → Prop
  | empty {m : Mem} (hf : Frame pml4) (hzero : ∀ i < 512, entry m pml4 i = 0) : PageRun pml4 [] m
  | step {ops : List PageOp} {m : Mem} {op : PageOp} (run : PageRun pml4 ops m)
      (hallowed : op.Allowed m pml4) : PageRun pml4 (op :: ops) (op.run pml4 m)

/-- The abstract address space after a sequence of calls. -/
def pageMap : List PageOp → PageMap
  | [] => fun _ => none
  | op :: ops => op.apply (pageMap ops)

variable {m m' : Mem} {own : Owner} {r vaddr : Nat} {pages : PageMap} {ops : List PageOp}

/-! ## One call -/

/-- A forest of one address space whose last-level tables hold `pages`. -/
def Represents (m : Mem) (r : Nat) (pages : PageMap) : Prop :=
  ∃ own, Forest 512 {r} ∅ m own ∧ Leaves m own r pages

lemma represents_empty (hf : Frame r) (hzero : ∀ i < 512, entry m r i = 0) :
    Represents m r fun _ => none := by
  have hown : ∀ {f k}, update (fun _ => none : Owner) r (some (r, 4, 0)) f = some k →
      f = r ∧ k = (r, 4, 0) := by
    intro f k hfk
    by_cases hfr : f = r
    · subst hfr
      rw [update_self] at hfk
      exact ⟨rfl, (some.inj hfk).symm⟩
    · rw [update_of_ne hfr] at hfk
      cases hfk
  refine ⟨update (fun _ => none) r (some (r, 4, 0)), ⟨?_, ?_, ?_, ?_, ?_, ?_⟩, ?_, ?_, ?_, ?_⟩
  · rintro r' rfl
    exact update_self _ _ _
  · intro f r' l n h
    exact (hown h).1 ▸ ⟨hf, Set.notMem_empty _⟩
  · intro f r' l n h
    obtain ⟨rfl, hk⟩ := hown h
    cases hk
    simp
  · intro f r' l n h
    exact (Prod.mk.inj (hown h).2).1
  · intro t r' l n h _ i hi _
    exact .inl ((hown h).1 ▸ hzero i hi)
  · intro g r' l n h hl
    cases (hown h).2
    omega
  · rintro P p flags ⟨⟩
  · intro f n h
    cases (hown h).2
  · exact fun P hP => absurd rfl hP
  · rintro P p flags ⟨⟩

/-- After the three levels of `vmm_map_page` the way to a user page is open. -/
lemma map_page_user {bound : Nat} {spaces reserved : Set Nat} {m m1 m2 m3 : Mem}
    {own own1 own2 own3 : Owner} {t3 t2 t1 : Nat}
    (e1 : Ensured bound spaces reserved m m1 own own1 r (pml4Index vaddr)
      (r, 3, pageNumber vaddr / 512 ^ 3) true t3)
    (e2 : Ensured bound spaces reserved m1 m2 own1 own2 t3 (pdptIndex vaddr)
      (r, 2, pageNumber vaddr / 512 ^ 2) true t2)
    (e3 : Ensured bound spaces reserved m2 m3 own2 own3 t2 (pdIndex vaddr)
      (r, 1, pageNumber vaddr / 512) true t1)
    (hroot : own r = some (r, 4, 0)) {l t : Nat} (hl : 1 ≤ l)
    (ht : own3 t = some (r, l + 1, pageNumber vaddr / 512 ^ (l + 1))) :
    (entry m3 t (pageNumber vaddr / 512 ^ l % 512)).testBit 2 = true := by
  have huser : ∀ {m m' : Mem} {own own' : Owner} {t i g : Nat} {key : Nat × Nat × Nat},
      Ensured bound spaces reserved m m' own own' t i key true g →
        (entry m' t i).testBit 2 = true := by
    intro m m' own own' t i g key e
    obtain ⟨u, he, hu, -⟩ := e.link
    rw [he, link_user (e.forest.frame g _ _ _ e.child).1, hu rfl]
  obtain ⟨hi4, hi3, hi2, _⟩ := index_lt vaddr
  obtain ⟨h4, h3, h2, _⟩ := regions vaddr
  have hlevel := e3.forest.level t _ _ _ ht
  have hcases : l = 3 ∨ l = 2 ∨ l = 1 := by omega
  rcases hcases with rfl | rfl | rfl
  · obtain ⟨rfl, -⟩ := hlevel.2.2.1 rfl
    have hroot1 := e1.mono _ _ hroot
    rw [show pageNumber vaddr / 512 ^ 3 % 512 = pml4Index vaddr by omega]
    exact e3.user_mono (e2.mono _ _ hroot1) hi4 (e2.user_mono hroot1 hi4 (huser e1))
  · obtain rfl := e3.forest.owner_unique ht (e3.mono _ _ (e2.mono _ _ e1.child))
    rw [show pageNumber vaddr / 512 ^ 2 % 512 = pdptIndex vaddr by omega]
    exact e3.user_mono (e2.mono _ _ e1.child) hi3 (huser e2)
  · obtain rfl := e3.forest.owner_unique ht (e3.mono _ _ e2.child)
    rw [show pageNumber vaddr / 512 ^ 1 % 512 = pdIndex vaddr by omega]
    exact huser e3

/-- `vmm_map_page` in a tree, with a supply of unused frames, maps the page. -/
lemma Forest.map_leaves {reserved : Set Nat} (hF : Forest 512 {r} reserved m own)
    (hL : Leaves m own r pages) {paddr flags : Nat} {frames : List Nat}
    (hfresh : Fresh reserved own frames) (hp : Frame paddr) (hflags : MapFlags flags)
    (hsup : MapSupplied m frames r vaddr flags) :
    ∃ own', Forest 512 {r} reserved (vmmMapPage m frames r paddr vaddr pageSize4KB flags).1 own' ∧
      Leaves (vmmMapPage m frames r paddr vaddr pageSize4KB flags).1 own' r
        (update pages (pageNumber vaddr) (some (paddr, flags))) := by
  have hroot := hF.root r rfl
  obtain ⟨m1, m2, m3, own1, own2, own3, t3, t2, t1, e1, e2, e3, hm⟩ :=
    hF.map_page rfl (index_lt vaddr).1 hfresh hsup paddr
  have hL3 : Leaves m3 own3 r pages :=
    ((hL.ensure hF e1 hroot (by norm_num)).ensure e1.forest e2 e1.child (by norm_num)).ensure
      e2.forest e3 e2.child (by norm_num)
  have hi : ptIndex vaddr = pageNumber vaddr % 512 := by
    have := regions vaddr
    omega
  rw [hm, hi]
  refine ⟨own3, e3.forest.set_leaf e3.child (mod_lt _ (by norm_num)) _,
    hL3.set_leaf e3.forest e3.child (some (paddr, flags)) ?_ ?_⟩
  · rintro p fl ⟨⟩
    exact ⟨hp, hflags⟩
  · rintro p fl ⟨⟩ hu l t hl ht
    rw [hu] at e1 e2 e3
    exact map_page_user e1 e2 e3 hroot hl ht

lemma Forest.fresh_of_unused {reserved : Set Nat} (hF : Forest 512 {r} reserved m own)
    {frames : List Nat} (hnodup : frames.Nodup)
    (hframes : ∀ f ∈ frames, Frame f ∧ f ∉ reserved ∧ ¬ TableInUse m r f) :
    Fresh reserved own frames := by
  refine hF.fresh hnodup (fun f hf => (hframes f hf).1) (fun f hf => (hframes f hf).2.1) ?_ ?_
  · exact fun f hf hr => (hframes f hf).2.2 (.inl hr)
  · rintro f hf r' rfl l hl
    exact (hframes f hf).2.2 (.inr ⟨l, hl⟩)

lemma Represents.map (h : Represents m r pages) {paddr flags : Nat} {frames : List Nat}
    (hallowed : (PageOp.map paddr vaddr flags frames).Allowed m r) :
    Represents (vmmMapPage m frames r paddr vaddr pageSize4KB flags).1 r
      (update pages (pageNumber vaddr) (some (paddr, flags))) := by
  obtain ⟨own, hF, hL⟩ := h
  obtain ⟨hp, hflags, hnodup, hframes, hsup⟩ := hallowed
  have hfresh : Fresh ∅ own frames := hF.fresh_of_unused hnodup fun f hf =>
    ⟨(hframes f hf).1, Set.notMem_empty f, (hframes f hf).2⟩
  exact hF.map_leaves hL hfresh hp hflags hsup

lemma Represents.unmap (h : Represents m r pages) (vaddr : Nat) :
    Represents (vmmUnmapPage m r vaddr).1 r (update pages (pageNumber vaddr) none) ∧
      (vmmUnmapPage m r vaddr).2 = ((pages (pageNumber vaddr)).map Prod.fst).getD 0 := by
  obtain ⟨own, hF, hL⟩ := h
  have hi : ptIndex vaddr = pageNumber vaddr % 512 := by
    have := regions vaddr
    omega
  rcases hF.get_entry rfl (index_lt vaddr).1 with ⟨hnone, hno⟩ | ⟨g, hg, hsome⟩
  · have hp : pages (pageNumber vaddr) = none := by
      by_contra hP
      obtain ⟨f, hf⟩ := hL.table _ hP
      exact hno f hf
    simp only [vmmUnmapPage, hnone, hp, map_none, getD_none, and_true]
    rw [← hp, update_eq_self]
    exact ⟨own, hF, hL⟩
  · simp only [vmmUnmapPage, hsome, hi]
    refine ⟨⟨own, hF.set_leaf hg (mod_lt _ (by norm_num)) 0,
      hL.set_leaf hF hg none (by simp) (by simp)⟩, ?_⟩
    rw [hL.leaf g _ hg _ (mod_lt _ (by norm_num)), div_add_mod]
    exact leafEntry_mask (hL.valid _)

/-! ## Runs -/

lemma PageRun.represents (run : PageRun r ops m) : Represents m r (pageMap ops) := by
  induction run with
  | empty hf hzero => exact represents_empty hf hzero
  | @step ops m op _ hallowed ih =>
    cases op with
    | map paddr vaddr flags frames => exact ih.map hallowed
    | unmap vaddr => exact (ih.unmap vaddr).1

/-- Page tables refine a finite map: whatever was mapped and unmapped before, the
processor translates an address exactly as the map of the last calls says, and
`vmm_unmap_page` returns the frame of a mapped page and zero otherwise. -/
theorem page_tables_refine (run : PageRun r ops m) (vaddr : Nat) :
    walk m r vaddr = (pageMap ops (pageNumber vaddr)).map (translation vaddr) ∧
      (vmmUnmapPage m r vaddr).2 = ((pageMap ops (pageNumber vaddr)).map Prod.fst).getD 0 := by
  obtain ⟨own, hF, hL⟩ := run.represents
  exact ⟨hL.walk hF rfl vaddr, (run.represents.unmap vaddr).2⟩

lemma vmmEnsure_frames_length (m : Mem) (frames : List Nat) (t i flags : Nat) :
    frames.length ≤ (vmmEnsure m frames t i flags).2.1.length + 1 := by
  unfold vmmEnsure
  split
  · cases frames <;> simp [pmmAllocPage]
  · exact le_succ _

/-- Three frames are enough for every call. -/
lemma mapSupplied_of_length {frames : List Nat} (h : 3 ≤ frames.length) (m : Mem)
    (pml4 vaddr flags : Nat) : MapSupplied m frames pml4 vaddr flags := by
  have h4 := vmmEnsure_frames_length m frames pml4 (pml4Index vaddr) flags
  refine ⟨?_, ?_, ?_⟩
  · exact fun _ => ne_nil_of_length_pos (by omega)
  · exact fun _ => ne_nil_of_length_pos (by omega)
  · intro _
    have h3 := vmmEnsure_frames_length (vmmEnsure m frames pml4 (pml4Index vaddr) flags).1
      (vmmEnsure m frames pml4 (pml4Index vaddr) flags).2.1
      (vmmEnsure m frames pml4 (pml4Index vaddr) flags).2.2 (pdptIndex vaddr) flags
    exact ne_nil_of_length_pos (by omega)

/-- A user page mapped in an empty address space over zeroed memory. -/
theorem page_tables_refine_one_page :
    walk (vmmMapPage (fun _ => 0) [0x2000, 0x3000, 0x4000] 0x1000 0x5000 0x7000 pageSize4KB 6).1
      0x1000 0x7123 = some ⟨0x5123, true, true⟩ := by
  have hzero : ∀ i < 512, entry (fun _ => 0) 0x1000 i = 0 :=
    fun i _ => load64_eq_zero fun _ _ _ => rfl
  have hallowed : (PageOp.map 0x5000 0x7000 6 [0x2000, 0x3000, 0x4000]).Allowed (fun _ => 0)
      0x1000 := by
    refine ⟨⟨by decide, by decide⟩, by decide, by decide, ?_,
      mapSupplied_of_length (by decide) _ _ _ _⟩
    intro f hf
    simp only [mem_cons, not_mem_nil, or_false] at hf
    refine ⟨?_, fun huse => ?_⟩
    · rcases hf with rfl | rfl | rfl <;> exact ⟨by decide, by decide⟩
    · rcases huse with rfl | ⟨l, hl⟩
      · omega
      · exact not_tableBehind_of_empty hzero hl
  have run := PageRun.step (PageRun.empty ⟨by decide, by decide⟩ hzero) hallowed
  exact (page_tables_refine run 0x7123).1

end DestinX.Paging
