import DestinX.Base.Runs
import DestinX.Paging.Refinement
import DestinX.Paging.Spaces

/-!
# Mapping when memory runs out

`pmm_alloc_page` returns 0 when there is no free page, and `vmm_map_page` takes this for the
address of a frame: it clears the frame at the address 0 and links it as a table, of several
levels at once. A tree stays as it should be exactly as long as every table that is needed gets
a frame.
-/

namespace DestinX.Paging

open Base

/-- A call for a page of 4 KiB. `frames` is what `pmm_alloc_page` returns during the call, and after
these it returns 0. -/
structure MapCall where
  (paddr vaddr flags : Nat)
  frames : List Nat

/-- The caller maps a frame with the usual flags, and the allocator hands out frames that are not in
use. -/
structure MapCall.Proper (c : MapCall) (m : Mem) (pml4 : Nat) : Prop where
  frame : Frame c.paddr
  flags : MapFlags c.flags
  nodup : c.frames.Nodup
  unused : ∀ f ∈ c.frames, Frame f ∧ f ≠ 0 ∧ ¬ TableInUse m pml4 f

/-- `pmm_alloc_page` does not return 0 during the call. -/
def MapCall.Supplied (c : MapCall) (m : Mem) (pml4 : Nat) : Prop :=
  MapSupplied m c.frames pml4 c.vaddr c.flags

def MapCall.run (c : MapCall) (m : Mem) (pml4 : Nat) : Mem :=
  (vmmMapPage m c.frames pml4 c.paddr c.vaddr pageSize4KB c.flags).1

/-- The memory and the pages that have been mapped since the start. -/
structure TreeState where
  mem : Mem
  mapped : List Nat

/-- Calls one after the other, from the memory `m₀`. -/
def mapMachine (m₀ : Mem) (pml4 : Nat) : Machine TreeState MapCall where
  start s := s = ⟨m₀, []⟩
  step s c s' :=
    c.Proper s.mem pml4 ∧ s' = ⟨c.run s.mem pml4, pageNumber c.vaddr :: s.mapped⟩

/-- Other pages are translated as at the start, no entry leads to a table at the address 0, and the
words there are as they were. -/
structure Harmless (m₀ : Mem) (pml4 : Nat) (s : TreeState) : Prop where
  translation : ∀ vaddr, pageNumber vaddr ∉ s.mapped → walk s.mem pml4 vaddr = walk m₀ pml4 vaddr
  entries : ∀ l, ¬ TableBehind s.mem (Set.Iio 512) pml4 l 0
  frame : ∀ j < 512, entry s.mem 0 j = entry m₀ 0 j

variable {m m' m₀ : Mem} {own : Owner} {pages : PageMap} {s s' : TreeState} {c : MapCall}
  {r t g i j e l vaddr flags paddr : Nat} {frames : List Nat} {u : Bool}

/-! ## The frame at the address 0 -/

lemma frame_zero : Frame 0 := ⟨Dvd.intro 0 rfl, by norm_num⟩

/-- Without a free page, a missing table is the frame at the address 0. -/
lemma vmmEnsure_exhausted (he : entry m t i = 0) : vmmEnsure m [] t i flags =
      (setEntry (clearTable m 0) t i (0 ||| linkFlags (flags.testBit 2)), [], 0) := by
  have hp : entry m t i &&& ptePresent = 0 := by rw [he, Nat.zero_and]
  have hzero : vmmEnsure m [0] t i flags = _ := vmmEnsure_of_empty frame_zero he
  rw [vmmEnsure, if_pos hp] at hzero ⊢
  exact hzero

/-- Outside the frame at the address 0 all tables are the same. -/
def SameButZero (m m' : Mem) : Prop :=
  ∀ t j, 2 ^ 12 ∣ t → j < 512 → t ≠ 0 → entry m' t j = entry m t j

/-- All entries of the frame at the address 0 are empty or lead back to it. -/
def ZeroLinks (m : Mem) : Prop :=
  ∀ j < 512, entry m 0 j = 0 ∨ ∃ u, entry m 0 j = 0 ||| linkFlags u

lemma SameButZero.trans {m'' : Mem} (h : SameButZero m m') (h' : SameButZero m' m'') :
    SameButZero m m'' :=
  fun t j ht hj hne => (h' t j ht hj hne).trans (h t j ht hj hne)

lemma sameButZero_set (m : Mem) (hi : i < 512) (e : Nat) : SameButZero m (setEntry m 0 i e) :=
  fun _ _ ht hj hne => entry_setEntry_of_ne frame_zero.aligned ht hi hj fun hand => hne hand.1

lemma sameButZero_clear (m : Mem) : SameButZero m (clearTable m 0) :=
  fun _ _ ht hj hne => entry_clearTable_of_ne frame_zero.aligned ht hj hne

lemma zeroLinks_clear (m : Mem) : ZeroLinks (clearTable m 0) :=
  fun _ hj => .inl (entry_clearTable_self hj)

lemma zero_or_linkFlags_lt (u : Bool) : 0 ||| linkFlags u < 2 ^ 64 :=
  (or_lt frame_zero (linkFlags_lt u)).trans (by norm_num)

lemma ZeroLinks.set (h : ZeroLinks m) (hi : i < 512) (u : Bool) :
    ZeroLinks (setEntry m 0 i (0 ||| linkFlags u)) := by
  intro j hj
  by_cases hji : j = i
  · rw [hji]
    exact .inr ⟨u, entry_setEntry_self (zero_or_linkFlags_lt u)⟩
  · rw [entry_setEntry_of_ne frame_zero.aligned frame_zero.aligned hi hj fun hand => hji hand.2]
    exact h j hj

/-- The next level stays in the frame at the address 0. -/
lemma vmmEnsure_zero (hi : i < 512) (h : ZeroLinks m) (flags : Nat) :
    ∃ m', vmmEnsure m [] 0 i flags = (m', [], 0) ∧ SameButZero m m' ∧ ZeroLinks m' := by
  rcases h i hi with he | ⟨u, he⟩
  · exact ⟨_, vmmEnsure_exhausted he, (sameButZero_clear m).trans (sameButZero_set _ hi _),
      (zeroLinks_clear m).set hi _⟩
  · rw [vmmEnsure_of_link frame_zero he]
    cases flags.testBit 2 with
    | false => exact ⟨m, rfl, fun _ _ _ _ _ => rfl, h⟩
    | true => exact ⟨_, rfl, sameButZero_set m hi _, h.set hi true⟩

/-! ## Calls that get no frame -/

/-- A table was needed at `t[i]`, and the entry leads to the address 0. -/
structure LinksZero (m m' : Mem) (t i : Nat) : Prop where
  link : ∃ u, entry m' t i = 0 ||| linkFlags u
  same : ∀ t' j, 2 ^ 12 ∣ t' → j < 512 → t' ≠ 0 → ¬ (t' = t ∧ j = i) → entry m' t' j = entry m t' j

lemma LinksZero.keeps {m'' : Mem} (h : LinksZero m m' t i) (ht : 2 ^ 12 ∣ t) (hi : i < 512)
    (hne : t ≠ 0) (h' : SameButZero m' m'') : LinksZero m m'' t i := by
  obtain ⟨u, hu⟩ := h.link
  constructor
  · exact ⟨u, (h' t i ht hi hne).trans hu⟩
  · intro t' j ht' hj hne' hother
    exact (h' t' j ht' hj hne').trans (h.same t' j ht' hj hne' hother)

/-- The failed allocation itself. -/
lemma vmmEnsure_linksZero (ht : 2 ^ 12 ∣ t) (hi : i < 512) (hne : t ≠ 0) (he : entry m t i = 0)
    (flags : Nat) :
    ∃ m', vmmEnsure m [] t i flags = (m', [], 0) ∧ LinksZero m m' t i ∧ ZeroLinks m' := by
  refine ⟨_, vmmEnsure_exhausted he, ⟨⟨flags.testBit 2, ?_⟩, ?_⟩, ?_⟩
  · exact entry_setEntry_self (zero_or_linkFlags_lt _)
  · intro t' j ht' hj hne' hother
    rw [entry_setEntry_of_ne ht ht' hi hj hother]
    exact entry_clearTable_of_ne frame_zero.aligned ht' hj hne'
  · intro j hj
    rw [entry_setEntry_of_ne ht frame_zero.aligned hi hj fun hand => hne hand.1.symm]
    exact zeroLinks_clear m j hj

lemma Forest.empty_of_not_supplied {n : Nat} (h : Forest 512 {r} {0} m own)
    (ht : own t = some (r, l + 1, n)) (hl : 1 ≤ l) (hi : i < 512)
    (hsup : ¬ Paging.Supplied m frames t i) : entry m t i = 0 ∧ frames = [] := by
  rw [Paging.Supplied, Classical.not_imp, not_not] at hsup
  refine ⟨?_, hsup.2⟩
  rcases h.entries t r l n ht hl i hi (fun _ => hi) with hzero | ⟨g, u, hg, he⟩
  · exact hzero
  · have hpresent := hsup.1
    rw [ptePresent, and_two_pow_eq_zero_iff, he, link_present (h.frame g _ _ _ hg).1] at hpresent
    cases hpresent

/-! ### Tables that are reached -/

lemma tableBehind_link (hg : Frame g) (hi : i < 512) (he : entry m r i = g ||| linkFlags u) :
    TableBehind m (Set.Iio 512) r 3 g := by
  have htop : TableBehind m (Set.Iio 512) r 3 (pteTarget (entry m r i)) := by
    apply TableBehind.top hi hi
    rw [he]
    exact ⟨link_present hg u, link_small hg u⟩
  rwa [he, or_target hg (linkFlags_lt u)] at htop

lemma TableBehind.link (h : TableBehind m (Set.Iio 512) r (l + 1) t) (hl : 1 ≤ l) (hg : Frame g)
    (hi : i < 512) (he : entry m t i = g ||| linkFlags u) : TableBehind m (Set.Iio 512) r l g := by
  have hdown : TableBehind m (Set.Iio 512) r l (pteTarget (entry m t i)) := by
    apply TableBehind.down h hl hi
    rw [he]
    exact ⟨link_present hg u, link_small hg u⟩
  rwa [he, or_target hg (linkFlags_lt u)] at hdown

lemma Forest.ne_zero {n : Nat} (h : Forest 512 {r} {0} m own) (ht : own t = some (r, l, n)) :
    t ≠ 0 := (h.frame t r l n ht).2

/-- An empty entry is on no way, so all tables of the tree are reached as before. -/
lemma LinksZero.behind {t' : Nat} (h : LinksZero m m' t i) (hF : Forest 512 {r} {0} m own)
    (he : entry m t i = 0) (hbehind : TableBehind m (Set.Iio 512) r l t') :
    TableBehind m' (Set.Iio 512) r l t' := by
  have hlink : ∀ {t' j}, 2 ^ 12 ∣ t' → j < 512 → t' ≠ 0 → IsLink (entry m t' j) →
      entry m' t' j = entry m t' j := by
    intro t' j ht' hj hne hlink
    apply h.same t' j ht' hj hne
    rintro ⟨rfl, rfl⟩
    rw [he] at hlink
    exact not_isLink_zero hlink
  induction hbehind with
  | top hj hh hl =>
    have hroot := hF.root r rfl
    have hsame := hlink (hF.frame r _ _ _ hroot).1.aligned hj (hF.ne_zero hroot) hl
    rw [← hsame] at hl ⊢
    exact TableBehind.top hj hh hl
  | down ht hl hj hlk ih =>
    obtain ⟨n, hown⟩ := hF.owned_of_behind rfl ht
    have hsame := hlink ht.aligned hj (hF.ne_zero hown) hlk
    rw [← hsame] at hlk ⊢
    exact TableBehind.down ih hl hj hlk

/-- Behind the table without a frame is the frame at the address 0. -/
lemma LinksZero.reaches {n : Nat} (h : LinksZero m m' t i) (hF : Forest 512 {r} {0} m own)
    (he : entry m t i = 0) (ht : own t = some (r, l + 1, n)) (hl : 1 ≤ l) (hi : i < 512) :
    TableBehind m' (Set.Iio 512) r l 0 := by
  obtain ⟨u, hu⟩ := h.link
  obtain ⟨-, hle, hroot, -⟩ := hF.level t r (l + 1) n ht
  by_cases htop : l + 1 = 4
  · obtain rfl : l = 3 := Nat.succ.inj htop
    rw [(hroot rfl).1] at hu
    exact tableBehind_link frame_zero hi hu
  · have hbehind : TableBehind m (Set.Iio 512) r (l + 1) t :=
      hF.behind_of_owned (3 - (l + 1)) (l + 1) n t (by omega) ht
    exact (h.behind hF he hbehind).link hl frame_zero hi hu

/-- A call in which an allocation fails links the frame at the address 0, on whichever level. -/
lemma Forest.map_exhausted (hF : Forest 512 {r} {0} m own) (hfresh : Fresh {0} own frames)
    (hsup : ¬ MapSupplied m frames r vaddr flags) (paddr : Nat) :
    ∃ l, TableBehind (vmmMapPage m frames r paddr vaddr pageSize4KB flags).1
      (Set.Iio 512) r l 0 := by
  obtain ⟨h4, h3, -, -⟩ := regions vaddr
  obtain ⟨hi4, hi3, hi2, hi1⟩ := index_lt vaddr
  have hroot := hF.root r rfl
  rw [vmmMapPage]
  by_cases hs4 : Paging.Supplied m frames r (pml4Index vaddr)
  · obtain ⟨own1, e1, f1⟩ := @Forest.ensure _ _ _ m own r 3 0 r _ frames hF hroot (by norm_num) hi4
      (fun _ => hi4) hfresh hs4 flags
    rw [h4] at e1
    rw [MapSupplied, not_and] at hsup
    replace hsup := hsup hs4
    generalize vmmEnsure m frames r (pml4Index vaddr) flags = r4 at *
    obtain ⟨m1, frames1, t3⟩ := r4
    have ha3 := (e1.forest.frame t3 _ _ _ e1.child).1.aligned
    have hne3 := e1.forest.ne_zero e1.child
    by_cases hs3 : Paging.Supplied m1 frames1 t3 (pdptIndex vaddr)
    · obtain ⟨own2, e2, f2⟩ := @Forest.ensure _ _ _ m1 own1 r 2 _ t3 _ frames1 e1.forest e1.child
        (by norm_num) hi3 (fun hl => absurd hl (by norm_num)) f1 hs3 flags
      replace hsup := not_and.mp hsup hs3
      generalize vmmEnsure m1 frames1 t3 (pdptIndex vaddr) flags = r3 at *
      obtain ⟨m2, frames2, t2⟩ := r3
      have ha2 := (e2.forest.frame t2 _ _ _ e2.child).1.aligned
      have hne2 := e2.forest.ne_zero e2.child
      -- the page table is missing
      obtain ⟨he, rfl⟩ := e2.forest.empty_of_not_supplied e2.child (by norm_num) hi2 hsup
      obtain ⟨m3, hr2, hz, -⟩ := vmmEnsure_linksZero ha2 hi2 hne2 he flags
      rw [hr2]
      have hend := hz.keeps ha2 hi2 hne2 (sameButZero_set m3 hi1 (paddr ||| (ptePresent ||| flags)))
      exact ⟨1, hend.reaches e2.forest he e2.child (by norm_num) hi2⟩
    · -- the page directory is missing
      obtain ⟨he, rfl⟩ := e1.forest.empty_of_not_supplied e1.child (by norm_num) hi3 hs3
      obtain ⟨m2, hr3, hz, hz2⟩ := vmmEnsure_linksZero ha3 hi3 hne3 he flags
      obtain ⟨m3, hr2, hsame3, -⟩ := vmmEnsure_zero hi2 hz2 flags
      rw [hr3, hr2]
      have hend := hz.keeps ha3 hi3 hne3
        (hsame3.trans (sameButZero_set m3 hi1 (paddr ||| (ptePresent ||| flags))))
      exact ⟨2, hend.reaches e1.forest he e1.child (by norm_num) hi3⟩
  · -- the page directory pointer table is missing
    have ha4 := (hF.frame r _ _ _ hroot).1.aligned
    have hne4 := hF.ne_zero hroot
    obtain ⟨he, rfl⟩ := hF.empty_of_not_supplied hroot (by norm_num) hi4 hs4
    obtain ⟨m1, hr4, hz, hz1⟩ := vmmEnsure_linksZero ha4 hi4 hne4 he flags
    obtain ⟨m2, hr3, hsame2, hz2⟩ := vmmEnsure_zero hi3 hz1 flags
    obtain ⟨m3, hr2, hsame3, -⟩ := vmmEnsure_zero hi2 hz2 flags
    rw [hr4, hr3, hr2]
    have hend := hz.keeps ha4 hi4 hne4 (hsame2.trans
      (hsame3.trans (sameButZero_set m3 hi1 (paddr ||| (ptePresent ||| flags)))))
    exact ⟨3, hend.reaches hF he hroot (by norm_num) hi4⟩

/-! ## Runs -/

/-- The tables are a tree of their own without the frame at the address 0. -/
structure TreeInv (m₀ : Mem) (r : Nat) (s : TreeState) : Prop where
  tree : ∃ own pages, Forest 512 {r} {0} s.mem own ∧ Leaves s.mem own r pages
  harmless : Harmless m₀ r s

lemma Forest.reserve_zero (h : Forest 512 {r} ∅ m own) (hzero : ¬ TableInUse m r 0) :
    Forest 512 {r} {0} m own where
  root := h.root
  frame := by
    intro f r' l n hf
    refine ⟨(h.frame f r' l n hf).1, ?_⟩
    rintro rfl
    obtain rfl := h.space 0 r' l n hf
    obtain ⟨-, hle, hroot, -⟩ := h.level 0 r' l n hf
    by_cases htop : l = 4
    · exact hzero (.inl (hroot htop).1)
    · exact hzero (.inr ⟨l, h.behind_of_owned (3 - l) l n 0 (by omega) hf⟩)
  level := h.level
  space := h.space
  entries := h.entries
  linked := h.linked

lemma MapCall.Proper.fresh (h : c.Proper m r) (hF : Forest 512 {r} {0} m own) :
    Fresh {0} own c.frames :=
  hF.fresh_of_unused h.nodup fun f hf => ⟨(h.unused f hf).1, (h.unused f hf).2.1,
    (h.unused f hf).2.2⟩

/-- A call that gets its frames. -/
lemma TreeInv.step (h : TreeInv m₀ r s) (hgood : c.Supplied s.mem r)
    (hstep : (mapMachine m₀ r).step s c s') : TreeInv m₀ r s' := by
  obtain ⟨hproper, rfl⟩ := hstep
  obtain ⟨own, pages, hF, hL⟩ := h.tree
  have hfresh := hproper.fresh hF
  obtain ⟨own', hF', hL'⟩ := hF.map_leaves hL hfresh hproper.frame hproper.flags hgood
  obtain ⟨own'', htouched⟩ := hF.touched_map rfl (index_lt c.vaddr).1 hfresh hgood c.paddr
  refine ⟨⟨own', _, hF', hL'⟩, ?_, ?_, ?_⟩
  · intro vaddr hnot
    rw [List.mem_cons, not_or] at hnot
    calc walk (c.run s.mem r) r vaddr = (pages (pageNumber vaddr)).map (translation vaddr) := by
          rw [MapCall.run, hL'.walk hF' rfl, Function.update_of_ne hnot.1]
      _ = walk s.mem r vaddr := (hL.walk hF rfl vaddr).symm
      _ = walk m₀ r vaddr := h.harmless.translation vaddr hnot.2
  · intro l hbehind
    obtain ⟨n, hown⟩ := hF'.owned_of_behind rfl hbehind
    exact hF'.ne_zero hown rfl
  · intro j hj
    have hnone : own'' 0 = none := by
      by_contra hsome
      obtain ⟨⟨r', l, n⟩, hown⟩ := Option.ne_none_iff_exists'.mp hsome
      exact (htouched.forest.frame 0 r' l n hown).2 rfl
    exact (htouched.same 0 j frame_zero.aligned hj (.inl hnone)).trans (h.harmless.frame j hj)

lemma TreeInv.step_exhausted (h : TreeInv m₀ r s) (hbad : ¬ c.Supplied s.mem r)
    (hstep : (mapMachine m₀ r).step s c s') : ¬ Harmless m₀ r s' := by
  obtain ⟨hproper, rfl⟩ := hstep
  obtain ⟨own, pages, hF, -⟩ := h.tree
  obtain ⟨l, hbehind⟩ := hF.map_exhausted (hproper.fresh hF) hbad c.paddr
  exact fun hharmless => hharmless.entries l hbehind

/-- Along every run of calls that get their frames the tree is as it should be, and the next call,
on whatever page, leaves it so exactly if no allocation in it fails. -/
theorem mapping_harmless_iff (htree : Represents m₀ r pages) (hzero : ¬ TableInUse m₀ r 0)
    (run : (mapMachine m₀ r).Reached (fun s c => c.Supplied s.mem r) s) :
    (mapMachine m₀ r).SafeExactlyWhen (Harmless m₀ r) (fun s c => c.Supplied s.mem r) s := by
  have hstart : ∀ s, (mapMachine m₀ r).start s → TreeInv m₀ r s := by
    rintro s rfl
    obtain ⟨own, hF, hL⟩ := htree
    refine ⟨⟨own, pages, hF.reserve_zero hzero, hL⟩, fun _ _ => rfl, fun l hbehind => ?_,
      fun _ _ => rfl⟩
    exact hzero (.inr ⟨l, hbehind⟩)
  exact run.safeExactlyWhen hstart (fun _ _ _ h hgood hstep => h.step hgood hstep)
    (fun _ h => h.harmless) (fun _ _ _ h hstep hbad => h.step_exhausted hbad hstep)

/-- A user page, mapped with these frames. -/
def oneCall (frames : List Nat) : MapCall := ⟨0x5000, 0x7000, 6, frames⟩

lemma empty_entry (i : Nat) : entry (fun _ => 0) 0x1000 i = 0 := load64_eq_zero fun _ _ _ => rfl

lemma empty_not_inUse {f : Nat} (hf : f ≠ 0x1000) : ¬ TableInUse (fun _ => 0) 0x1000 f := by
  rintro (rfl | ⟨l, hl⟩)
  · exact hf rfl
  · exact not_tableBehind_of_empty (fun i _ => empty_entry i) hl

lemma oneCall_proper : (oneCall [0x2000, 0x3000, 0x4000]).Proper (fun _ => 0) 0x1000 where
  frame := ⟨by decide, by decide⟩
  flags := by decide
  nodup := by decide
  unused := by
    intro f hf
    simp only [oneCall, List.mem_cons, List.not_mem_nil, or_false] at hf
    rcases hf with rfl | rfl | rfl
    · exact ⟨⟨by decide, by decide⟩, by decide, empty_not_inUse (by decide)⟩
    · exact ⟨⟨by decide, by decide⟩, by decide, empty_not_inUse (by decide)⟩
    · exact ⟨⟨by decide, by decide⟩, by decide, empty_not_inUse (by decide)⟩

theorem mapping_harmless_one_page : Harmless (fun _ => 0) 0x1000
      ⟨(oneCall [0x2000, 0x3000, 0x4000]).run (fun _ => 0) 0x1000, [pageNumber 0x7000]⟩ := by
  have htree : Represents (fun _ => 0) 0x1000 fun _ => none :=
    represents_empty ⟨by decide, by decide⟩ fun i _ => empty_entry i
  have hnext := (mapping_harmless_iff htree (empty_not_inUse (by decide))
    (Machine.Reached.start rfl)).2 (oneCall [0x2000, 0x3000, 0x4000]) _ ⟨oneCall_proper, rfl⟩
  exact hnext.mpr (mapSupplied_of_length (by decide) _ _ _ _)

/-- Without a free page the same call writes the frame at the address 0, and the page at the virtual
address 0 is mapped to it. -/
theorem mapping_exhausted_maps_zero : walk (fun _ => 0) 0x1000 0 = none ∧
      walk ((oneCall []).run (fun _ => 0) 0x1000) 0x1000 0 = some ⟨0, true, true⟩ ∧
      entry (fun _ => 0) 0 7 = 0 ∧ entry ((oneCall []).run (fun _ => 0) 0x1000) 0 7 = 0x5007 := by
  decide +kernel

end DestinX.Paging
