import DestinX.Paging.Tables

/-!
# `vmm_get_paddr`

`vmm_get_paddr` masks the entry that `vmm_get_entry` returns. It neither adds the offset within
the page nor looks at the level, and it does not test for NULL. In a page of 2 MiB with
`PTE_WC_HUGE` the flag lies in the mask.

The trees are those that `vmm_map_page` builds with both sizes of pages. A call for a page of
4 KiB inside one of 2 MiB takes the large page for a table and writes to it; no table is there,
so the tree does not change.
-/

namespace DestinX.Paging

open Base Function List Option Bool Nat

def pteWCHuge : Nat := 2 ^ 12

/-- `vmm_get_paddr`. There is no result when the entry that it reads is NULL. -/
def vmmGetPaddr (m : Mem) (pml4 vaddr : Nat) : Option Nat :=
  (vmmGetEntry m pml4 vaddr).map fun r => entry m r.1 r.2.1 &&& pageMask4KB

/-! ## Trees with both sizes of pages -/

/-- A call of `vmm_map_page`. `frames` is what `pmm_alloc_page` returns during the call. -/
structure PageCall where
  (paddr vaddr : Nat)
  huge : Bool
  flags : Nat
  frames : List Nat

def PageCall.size (c : PageCall) : Nat := if c.huge then pageSize2MB else pageSize4KB

/-- Every call of `pmm_alloc_page` finds a frame. -/
def PageCall.Supplied (c : PageCall) (m : Mem) (pml4 : Nat) : Prop :=
  let r₄ := vmmEnsure m c.frames pml4 (pml4Index c.vaddr) c.flags
  let r₃ := vmmEnsure r₄.1 r₄.2.1 r₄.2.2 (pdptIndex c.vaddr) c.flags
  Paging.Supplied m c.frames pml4 (pml4Index c.vaddr) ∧
    Paging.Supplied r₄.1 r₄.2.1 r₄.2.2 (pdptIndex c.vaddr) ∧
    (c.huge = false → Paging.Supplied r₃.1 r₃.2.1 r₃.2.2 (pdIndex c.vaddr))

/-- The memory, the frames that hold tables and the pages of 2 MiB that have been mapped. -/
structure BuiltTree where
  mem : Mem
  (tables huge : Set Nat)

/-- The address lies in the page of 2 MiB. -/
def InHuge (page a : Nat) : Prop := page ≤ a ∧ a < page + 2 ^ 21

/-- The frames are not in use. -/
structure Untaken (tables huge : Set Nat) (frames : List Nat) : Prop where
  nodup : frames.Nodup
  frame : ∀ f ∈ frames, Frame f
  table : ∀ f ∈ frames, f ∉ tables
  page : ∀ f ∈ frames, ∀ p ∈ huge, ¬ InHuge p f

/-- The caller maps an aligned page that holds no table, with flags below the address, of
which `PTE_WC_HUGE` is one for a large page. The allocator returns frames that are not in use,
as many as the call asks for. -/
structure PageCall.Proper (c : PageCall) (s : BuiltTree) (pml4 : Nat) : Prop where
  small : c.huge = false → Frame c.paddr ∧ c.flags < 2 ^ 12
  large : c.huge = true → 2 ^ 21 ∣ c.paddr ∧ c.paddr < 2 ^ 52 ∧ c.flags < 2 ^ 13 ∧
    ∀ t, t ∈ s.tables ∨ t ∈ c.frames → ¬ InHuge c.paddr t
  untaken : Untaken s.tables s.huge c.frames
  supplied : c.Supplied s.mem pml4
  taken : (vmmMapPage s.mem c.frames pml4 c.paddr c.vaddr c.size c.flags).2 = []

def BuiltTree.map (s : BuiltTree) (pml4 : Nat) (c : PageCall) : BuiltTree where
  mem := (vmmMapPage s.mem c.frames pml4 c.paddr c.vaddr c.size c.flags).1
  tables := s.tables ∪ {f | f ∈ c.frames}
  huge := if c.huge then insert c.paddr s.huge else s.huge

/-- The trees that calls of `vmm_map_page` build from an empty PML4. -/
inductive Built (pml4 : Nat) : BuiltTree → Prop
  | new {m : Mem} : Frame pml4 → (∀ i < 512, entry m pml4 i = 0) → Built pml4 ⟨m, {pml4}, ∅⟩
  | map {s : BuiltTree} {c : PageCall} : Built pml4 s → c.Proper s pml4 → Built pml4 (s.map pml4 c)

/-! ## The words of the tables -/

/-- What a word of a table of level `l` holds. -/
inductive TreeWord (tables huge : Set Nat) (level : Nat → Nat) (l e : Nat) : Prop
  | empty (he : e = 0)
  | link (g : Nat) (u : Bool) (hg : g ∈ tables) (hl : level g + 1 = l) (he : e = g ||| linkFlags u)
  | huge (p fl : Nat) (hp : p ∈ huge) (hl : l = 2)
      (hfl : fl < 2 ^ 13 ∧ fl.testBit 0 = true ∧ fl.testBit 7 = true) (he : e = p ||| fl)
  | page (p fl : Nat) (hp : Frame p) (hl : l = 1) (hfl : fl < 2 ^ 12 ∧ fl.testBit 0 = true)
      (he : e = p ||| fl)

/-- Every table has one level, and the large pages hold no table. -/
structure TreeWords (m : Mem) (tables huge : Set Nat) (level : Nat → Nat) : Prop where
  frame : ∀ t ∈ tables, Frame t
  range : ∀ t ∈ tables, 1 ≤ level t ∧ level t ≤ 4
  word : ∀ t ∈ tables, ∀ i < 512, TreeWord tables huge level (level t) (entry m t i)
  page : ∀ p ∈ huge, 2 ^ 21 ∣ p ∧ p < 2 ^ 52 ∧ ∀ t ∈ tables, ¬ InHuge p t

variable {m : Mem} {tables tables' huge huge' : Set Nat} {level level' : Nat → Nat}
  {t g i l e p fl flags v pml4 : Nat} {frames : List Nat} {s : BuiltTree} {c : PageCall}

lemma TreeWord.mono (h : TreeWord tables huge level l e)
    (htables : ∀ t ∈ tables, t ∈ tables' ∧ level' t = level t) (hhuge : huge ⊆ huge') :
    TreeWord tables' huge' level' l e := by
  cases h with
  | empty he => exact .empty he
  | link g u hg hl he =>
    obtain ⟨hg', hlevel⟩ := htables g hg
    exact .link g u hg' (by rw [hlevel, hl]) he
  | huge p fl hp hl hfl he => exact .huge p fl (hhuge hp) hl hfl he
  | page p fl hp hl hfl he => exact .page p fl hp hl hfl he

section

variable (h : TreeWords m tables huge level)
include h

/-- A word of a table is written. -/
lemma TreeWords.set (ht : t ∈ tables) (hi : i < 512) (he : e < 2 ^ 64)
    (hword : TreeWord tables huge level (level t) e) :
    TreeWords (setEntry m t i e) tables huge level := by
  refine ⟨h.frame, h.range, fun t' ht' j hj => ?_, h.page⟩
  by_cases hat : t' = t ∧ j = i
  · obtain ⟨rfl, rfl⟩ := hat
    rw [entry_setEntry_self he]
    exact hword
  · rw [entry_setEntry_of_ne (h.frame t ht).aligned (h.frame t' ht').aligned hi hj hat]
    exact h.word t' ht' j hj

lemma TreeWords.set_data (hg : g ∉ tables) (haligned : 2 ^ 12 ∣ g) (hi : i < 512) (e : Nat) :
    TreeWords (setEntry m g i e) tables huge level := by
  refine ⟨h.frame, h.range, fun t ht j hj => ?_, h.page⟩
  have hne : ¬ (t = g ∧ j = i) := fun he => hg (he.1 ▸ ht)
  rw [entry_setEntry_of_ne haligned (h.frame t ht).aligned hi hj hne]
  exact h.word t ht j hj

/-- A frame that is not in use becomes a table, linked from the word `i` of `t`. -/
lemma TreeWords.link_new {f : Nat} (ht : t ∈ tables) (hl : level t = l + 1) (hl' : 1 ≤ l)
    (hi : i < 512) (hf : Frame f) (hnew : f ∉ tables) (hpage : ∀ p ∈ huge, ¬ InHuge p f)
    (u : Bool) :
    TreeWords (setEntry (clearTable m f) t i (f ||| linkFlags u)) (insert f tables) huge
      (update level f l) := by
  have hmono : ∀ t ∈ tables, t ∈ insert f tables ∧ update level f l t = level t := by
    intro t ht
    refine ⟨Set.mem_insert_of_mem f ht, update_of_ne ?_ l level⟩
    rintro rfl
    exact hnew ht
  have hself : update level f l f = l := update_self f l level
  have hlevel := h.range t ht
  -- the clear table first, then the link to it
  have hclear : TreeWords (clearTable m f) (insert f tables) huge (update level f l) := by
    constructor
    · intro t' ht'
      rcases ht' with rfl | ht'
      · exact hf
      · exact h.frame t' ht'
    · intro t' ht'
      rcases ht' with rfl | ht'
      · omega
      · rw [(hmono t' ht').2]
        exact h.range t' ht'
    · intro t' ht' j hj
      by_cases hne : t' = f
      · subst hne
        exact .empty (entry_clearTable_self hj)
      · have ht' : t' ∈ tables := ht'.resolve_left hne
        rw [(hmono t' ht').2, entry_clearTable_of_ne hf.aligned (h.frame t' ht').aligned hj hne]
        exact (h.word t' ht' j hj).mono hmono subset_rfl
    · intro p hp
      obtain ⟨haligned, hlt, hout⟩ := h.page p hp
      refine ⟨haligned, hlt, fun t' ht' => ?_⟩
      rcases ht' with rfl | ht'
      · exact hpage p hp
      · exact hout t' ht'
  apply hclear.set (hmono t ht).1 hi ((or_lt hf (linkFlags_lt u)).trans (by norm_num))
  rw [(hmono t ht).2]
  exact .link f u (Set.mem_insert f tables) (by rw [hself, hl]) rfl

end

/-! ## One level of `vmm_map_page` -/

lemma vmmEnsure_of_present (hp : (entry m t i).testBit 0 = true) : vmmEnsure m frames t i flags =
      let m' := if flags.testBit 2 then setEntry m t i (entry m t i ||| pteUser) else m
      (m', frames, entry m' t i &&& pageMask4KB) := by
  have hp' : ¬ entry m t i &&& ptePresent = 0 := by
    rw [ptePresent, and_two_pow_eq_zero_iff, hp]
    simp
  rw [vmmEnsure, if_neg hp']
  cases hu : flags.testBit 2 with
  | false =>
    have h0 : flags &&& pteUser = 0 := and_two_pow_eq_zero_iff.mpr hu
    simp [h0]
  | true =>
    have h0 : ¬ flags &&& pteUser = 0 := by
      rw [pteUser, and_two_pow_eq_zero_iff, hu]
      simp
    simp [h0]

lemma huge_lt (hlt : p < 2 ^ 52) (hfl : fl < 2 ^ 13) : p ||| fl < 2 ^ 64 :=
  (or_lt_two_pow hlt (hfl.trans (by norm_num))).trans (by norm_num)

lemma huge_mask (hp : 2 ^ 21 ∣ p) (hlt : p < 2 ^ 52) (hfl : fl < 2 ^ 13) :
    (p ||| fl) &&& pageMask4KB = p + fl / 2 ^ 12 * 2 ^ 12 := by
  have hmask : pageMask4KB = 2 ^ 64 - 2 ^ 12 := rfl
  rw [hmask, and_high_mask (huge_lt hlt hfl) (by norm_num), or_flags hp (hfl.trans (by norm_num))]
  obtain ⟨a, rfl⟩ := hp
  omega

/-- After one level: a table of the next level, or an address inside a large page. -/
structure LevelDone (m' : Mem) (frames' : List Nat) (g : Nat) (tables : Set Nat) (huge : Set Nat)
    (level : Nat → Nat) (frames : List Nat) (tables' : Set Nat) (level' : Nat → Nat) (l : Nat) :
    Prop where
  words : TreeWords m' tables' huge level'
  untaken : Untaken tables' huge frames'
  same : ∀ x, (x ∈ tables' ∨ x ∈ frames') ↔ (x ∈ tables ∨ x ∈ frames)
  mono : ∀ x ∈ tables, x ∈ tables' ∧ level' x = level x
  next : (g ∈ tables' ∧ level' g = l) ∨ (l = 1 ∧ g ∉ tables' ∧ 2 ^ 12 ∣ g)

lemma TreeWords.ensure (h : TreeWords m tables huge level) (ht : t ∈ tables)
    (hl : level t = l + 1) (hl' : 1 ≤ l) (hi : i < 512) (hsupplied : Supplied m frames t i)
    (huntaken : Untaken tables huge frames) (flags : Nat) :
    ∃ m' frames' g tables' level', vmmEnsure m frames t i flags = (m', frames', g) ∧
      LevelDone m' frames' g tables huge level frames tables' level' l := by
  cases h.word t ht i hi with
  | empty he =>
    cases frames with
    | nil => exact absurd rfl (hsupplied (by rw [he, zero_and]))
    | cons f frames =>
      have hf := huntaken.frame f mem_cons_self
      have hnew := huntaken.table f mem_cons_self
      obtain ⟨hfresh, hnodup⟩ := nodup_cons.mp huntaken.nodup
      refine ⟨_, frames, f, insert f tables, update level f l, vmmEnsure_of_empty hf he, ?_⟩
      constructor
      · exact h.link_new ht hl hl' hi hf hnew (huntaken.page f mem_cons_self) _
      · refine ⟨hnodup, fun x hx => huntaken.frame x (mem_cons_of_mem f hx),
          fun x hx => ?_, fun x hx => huntaken.page x (mem_cons_of_mem f hx)⟩
        rintro (rfl | hmem)
        · exact hfresh hx
        · exact huntaken.table x (mem_cons_of_mem f hx) hmem
      · intro x
        rw [Set.mem_insert_iff, mem_cons]
        tauto
      · intro x hx
        refine ⟨Set.mem_insert_of_mem f hx, update_of_ne ?_ l level⟩
        rintro rfl
        exact hnew hx
      · exact .inl ⟨Set.mem_insert f tables, update_self f l level⟩
  | link g u hg hlevel he =>
    have hgl : level g = l := by omega
    refine ⟨_, frames, g, tables, level, vmmEnsure_of_link (h.frame g hg) he, ?_, huntaken,
      fun _ => Iff.rfl, fun x hx => ⟨hx, rfl⟩, .inl ⟨hg, hgl⟩⟩
    cases flags.testBit 2 with
    | false => exact h
    | true =>
      apply h.set ht hi ((or_lt (h.frame g hg) (linkFlags_lt true)).trans (by norm_num))
      exact .link g true hg hlevel rfl
  | huge p fl hp hl2 hfl he =>
    obtain ⟨haligned, hlt, hout⟩ := h.page p hp
    obtain ⟨hfl, hpresent, hsize⟩ := hfl
    -- the large page is taken for a table
    have hpresent' : (entry m t i).testBit 0 = true := by
      rw [he, testBit_or_flags haligned (by norm_num), hpresent]
    have huser : p ||| fl ||| pteUser = p ||| (fl ||| 4) := Nat.or_assoc p fl 4
    have hfl' : fl ||| 4 < 2 ^ 13 := or_lt_two_pow hfl (by norm_num)
    have hdata : ∀ fl' < 2 ^ 13, (p ||| fl') &&& pageMask4KB ∉ tables ∧
        2 ^ 12 ∣ (p ||| fl') &&& pageMask4KB := by
      intro fl' hfl'
      rw [huge_mask haligned hlt hfl']
      constructor
      · intro hmem
        apply hout _ hmem
        simp only [InHuge]
        omega
      · exact dvd_add (Dvd.dvd.trans ⟨2 ^ 9, by norm_num⟩ haligned) (dvd_mul_left _ _)
    rw [vmmEnsure_of_present hpresent', he, huser]
    cases flags.testBit 2 with
    | false =>
      refine ⟨m, frames, _, tables, level, rfl, h, huntaken, fun _ => Iff.rfl,
        fun x hx => ⟨hx, rfl⟩, .inr ⟨by omega, ?_⟩⟩
      simp only [false_eq_true, if_false, he]
      exact hdata fl hfl
    | true =>
      have hlt' := huge_lt hlt hfl'
      refine ⟨_, frames, _, tables, level, rfl, h.set ht hi hlt' ?_, huntaken, fun _ => Iff.rfl,
        fun x hx => ⟨hx, rfl⟩, .inr ⟨by omega, ?_⟩⟩
      · refine .huge p (fl ||| 4) hp hl2 ⟨hfl', ?_, ?_⟩ rfl
        · rw [testBit_or, hpresent, Bool.true_or]
        · rw [testBit_or, hsize, Bool.true_or]
      · simp only [if_true, entry_setEntry_self hlt']
        exact hdata _ hfl'
  | page p fl hp hl1 hfl he => omega

lemma LevelDone.table {m' : Mem} {frames' : List Nat}
    (h : LevelDone m' frames' g tables huge level frames tables' level' l) (hl : l ≠ 1) :
    g ∈ tables' ∧ level' g = l :=
  h.next.resolve_right fun hdata => hl hdata.1

lemma present_or_testBit (flags : Nat) : (ptePresent ||| flags).testBit 0 = true := by
  rw [ptePresent]
  simp

/-! ## A whole call -/

/-- A call keeps every word of every table of its kind. -/
lemma TreeWords.map (h : TreeWords s.mem s.tables s.huge level) (hroot : pml4 ∈ s.tables)
    (hlevel : level pml4 = 4) (hc : c.Proper s pml4) :
    ∃ level', TreeWords (s.map pml4 c).mem (s.map pml4 c).tables (s.map pml4 c).huge level' ∧
      level' pml4 = 4 := by
  obtain ⟨hs4, hs3, hs2⟩ := hc.supplied
  have htaken := hc.taken
  obtain ⟨hi4, hi3, hi2, hi1⟩ := index_lt c.vaddr
  obtain ⟨m4, frames4, g4, tables4, level4, he4, h4⟩ :=
    h.ensure hroot hlevel (by norm_num) hi4 hs4 hc.untaken c.flags
  rw [he4] at hs3 hs2
  obtain ⟨hg4, hl4⟩ := h4.table (by norm_num)
  obtain ⟨m3, frames3, g3, tables3, level3, he3, h3⟩ :=
    h4.words.ensure hg4 hl4 (by norm_num) hi3 hs3 h4.untaken c.flags
  rw [he3] at hs2
  obtain ⟨hg3, hl3⟩ := h3.table (by norm_num)
  have hroot3 : level3 pml4 = 4 := by
    obtain ⟨hroot4, hsame4⟩ := h4.mono pml4 hroot
    rw [(h3.mono pml4 hroot4).2, hsame4, hlevel]
  have hall3 : ∀ x, (x ∈ tables3 ∨ x ∈ frames3) ↔ (x ∈ s.tables ∨ x ∈ c.frames) :=
    fun x => (h3.same x).trans (h4.same x)
  cases hhuge : c.huge with
  | true =>
    obtain ⟨haligned, hlt, hflags, hout⟩ := hc.large hhuge
    have hsize : c.size = pageSize2MB := by rw [PageCall.size, hhuge, if_pos rfl]
    have hne : ¬ pageSize2MB = pageSize4KB := by decide
    simp only [vmmMapPage, hsize, he4, he3, if_neg hne, if_true] at htaken
    have htables : ∀ x, x ∈ tables3 ↔ x ∈ s.tables ∨ x ∈ c.frames := by
      intro x
      rw [← hall3 x, htaken]
      simp
    have hentry : ptePresent ||| ptePageSize ||| c.flags < 2 ^ 13 :=
      or_lt_two_pow (by decide) hflags
    refine ⟨level3, ?_, hroot3⟩
    have hmem : (s.map pml4 c).mem = setEntry m3 g3 (pdIndex c.vaddr)
        (c.paddr ||| (ptePresent ||| ptePageSize ||| c.flags)) := by
      simp only [BuiltTree.map, vmmMapPage, hsize, he4, he3, if_neg hne, if_true]
    have htables' : (s.map pml4 c).tables = tables3 := Set.ext fun x => (htables x).symm
    have hhuge' : (s.map pml4 c).huge = insert c.paddr s.huge := by
      rw [BuiltTree.map, hhuge]
      rfl
    rw [hmem, htables', hhuge']
    -- with the new page among the large ones, its entry is of their kind
    have hpages : TreeWords m3 tables3 (insert c.paddr s.huge) level3 := by
      refine ⟨h3.words.frame, h3.words.range, fun t ht j hj => ?_, fun p hp => ?_⟩
      · exact (h3.words.word t ht j hj).mono (fun t ht => ⟨ht, rfl⟩) (Set.subset_insert _ _)
      · rcases hp with rfl | hp
        · exact ⟨haligned, hlt, fun t ht => hout t ((htables t).mp ht)⟩
        · exact h3.words.page p hp
    apply hpages.set hg3 hi2 (huge_lt hlt hentry)
    refine .huge c.paddr _ (Set.mem_insert _ _) hl3 ⟨hentry, ?_, ?_⟩ rfl
    · rw [Nat.or_assoc]
      exact present_or_testBit _
    · rw [testBit_or, testBit_or, ptePageSize, testBit_two_pow_self]
      simp
  | false =>
    obtain ⟨hframe, hflags⟩ := hc.small hhuge
    have hsize : c.size = pageSize4KB := by rw [PageCall.size, hhuge]; rfl
    obtain ⟨m2, frames2, g2, tables2, level2, he2, h2⟩ :=
      h3.words.ensure hg3 hl3 le_rfl hi2 (hs2 hhuge) h3.untaken c.flags
    simp only [vmmMapPage, hsize, he4, he3, he2, if_true] at htaken
    have htables : ∀ x, x ∈ tables2 ↔ x ∈ s.tables ∨ x ∈ c.frames := by
      intro x
      rw [← hall3 x, ← h2.same x, htaken]
      simp
    have hentry : ptePresent ||| c.flags < 2 ^ 12 := or_lt_two_pow (by decide) hflags
    have hroot2 : level2 pml4 = 4 := by
      rw [(h2.mono pml4 (h3.mono pml4 (h4.mono pml4 hroot).1).1).2, hroot3]
    have hmem : (s.map pml4 c).mem =
        setEntry m2 g2 (ptIndex c.vaddr) (c.paddr ||| (ptePresent ||| c.flags)) := by
      simp only [BuiltTree.map, vmmMapPage, hsize, he4, he3, he2, if_true]
    have htables' : (s.map pml4 c).tables = tables2 := Set.ext fun x => (htables x).symm
    have hhuge' : (s.map pml4 c).huge = s.huge := by
      rw [BuiltTree.map, hhuge]
      rfl
    refine ⟨level2, ?_, hroot2⟩
    rw [hmem, htables', hhuge']
    rcases h2.next with ⟨hg2, hl2⟩ | ⟨-, hg2, haligned⟩
    · apply h2.words.set hg2 hi1 ((or_lt hframe hentry).trans (by norm_num))
      exact .page c.paddr _ hframe hl2 ⟨hentry, present_or_testBit _⟩ rfl
    · exact h2.words.set_data hg2 haligned hi1 _

/-- Every tree that is built consists of tables of one level each, with words of the kinds
above. -/
lemma Built.words (run : Built pml4 s) :
    ∃ level, TreeWords s.mem s.tables s.huge level ∧ pml4 ∈ s.tables ∧ level pml4 = 4 := by
  induction run with
  | new hframe hempty =>
    refine ⟨fun _ => 4, ⟨?_, ?_, ?_, ?_⟩, rfl, rfl⟩
    · rintro t rfl
      exact hframe
    · intro t _
      omega
    · rintro t rfl i hi
      exact .empty (hempty i hi)
    · intro p hp
      exact absurd hp (Set.notMem_empty p)
  | map _ hc ih =>
    obtain ⟨level, h, hroot, hlevel⟩ := ih
    obtain ⟨level', h', hlevel'⟩ := h.map hroot hlevel hc
    exact ⟨level', h', .inl hroot, hlevel'⟩

/-! ## The two readings of an entry -/

/-- `vmm_get_paddr` gives the address that the processor finds, and 0 for an address that is not
mapped. -/
def PaddrAgrees (m : Mem) (pml4 v : Nat) : Prop :=
  match walk m pml4 v with
  | some tr => vmmGetPaddr m pml4 v = some tr.phys
  | none => vmmGetPaddr m pml4 v = some 0

/-- All tables for the address exist. If a page of 4 KiB is mapped there, the address is its
first; in a page of 2 MiB it is the first, or with `PTE_WC_HUGE` that 4 KiB behind it. -/
def PaddrExact (m : Mem) (pml4 v : Nat) : Prop :=
  match vmmGetEntry m pml4 v with
  | none => False
  | some (table, i, level) =>
    if level = 0 then (entry m table i).testBit 0 = true → v % 2 ^ 12 = 0
    else v % 2 ^ 21 = if (entry m table i).testBit 12 then 2 ^ 12 else 0

/-- Above the page directories an entry is empty or a link. -/
lemma TreeWords.upper (h : TreeWords m tables huge level) (ht : t ∈ tables)
    (hl : level t = l + 1) (hl' : 2 ≤ l) (hi : i < 512) :
    entry m t i = 0 ∨ ∃ g u, g ∈ tables ∧ level g = l ∧ entry m t i = g ||| linkFlags u := by
  cases h.word t ht i hi with
  | empty he => exact .inl he
  | link g u hg hlevel he => exact .inr ⟨g, u, hg, by omega, he⟩
  | huge p fl hp hlevel hfl he => omega
  | page p fl hp hlevel hfl he => omega

/-- Without a table the call dereferences NULL, and the address is not mapped. -/
lemma paddr_iff_of_missing (hentry : vmmGetEntry m pml4 v = none) (hwalk : walk m pml4 v = none) :
    PaddrAgrees m pml4 v ↔ PaddrExact m pml4 v := by
  simp [PaddrAgrees, PaddrExact, vmmGetPaddr, hentry, hwalk]

section Links

variable {g3 g2 : Nat} {u4 u3 : Bool}

section

variable (hg3 : Frame g3) (he4 : entry m pml4 (pml4Index v) = g3 ||| linkFlags u4) (hg2 : Frame g2)
  (he3 : entry m g3 (pdptIndex v) = g2 ||| linkFlags u3)
include hg3 he4 hg2 he3

lemma vmmGetEntry_of_link :
    vmmGetEntry m pml4 v = if (entry m g2 (pdIndex v)).testBit 0 = false then none
      else if (entry m g2 (pdIndex v)).testBit 7 = false then
        some (entry m g2 (pdIndex v) &&& pageMask4KB, ptIndex v, 0)
      else some (g2, pdIndex v, 2) := by
  simp only [vmmGetEntry, ptePresent, ptePageSize, and_two_pow_eq_zero_iff, he4, he3,
    link_present hg3, link_small hg3, or_mask hg3 (linkFlags_lt u4), link_present hg2,
    link_small hg2, or_mask hg2 (linkFlags_lt u3), true_eq_false, if_false, if_true]

lemma walk_of_links : walk m pml4 v = walkFrom m v 2 g2 true (u4 && u3) := by
  rw [pml4Index_eq] at he4
  rw [pdptIndex_eq] at he3
  rw [walk, walkFrom_of_link three_ne_zero hg3 he4, walkFrom_of_link two_ne_zero hg2 he3,
    Bool.true_and]

end

end Links

lemma huge_target (hp : 2 ^ 21 ∣ p) (hlt : p < 2 ^ 52) (hfl : fl < 2 ^ 13) :
    pteTarget (p ||| fl) / 2 ^ 21 * 2 ^ 21 = p := by
  rw [or_flags hp (hfl.trans (by norm_num)), pteTarget]
  obtain ⟨a, rfl⟩ := hp
  omega

lemma paddr_iff_of_huge {u : Bool} (hp : 2 ^ 21 ∣ p) (hlt : p < 2 ^ 52)
    (hfl : fl < 2 ^ 13 ∧ fl.testBit 0 = true ∧ fl.testBit 7 = true)
    (he : entry m g (pdIndex v) = p ||| fl) (hentry : vmmGetEntry m pml4 v = some (g, pdIndex v, 2))
    (hwalk : walk m pml4 v = walkFrom m v 2 g true u) :
    PaddrAgrees m pml4 v ↔ PaddrExact m pml4 v := by
  obtain ⟨hfl, hpresent, hsize⟩ := hfl
  have hbit : ∀ i < 21, (p ||| fl).testBit i = fl.testBit i := fun i hi => testBit_or_flags hp hi
  have hwc : fl / 2 ^ 12 * 2 ^ 12 = if fl.testBit 12 then 2 ^ 12 else 0 := by
    rw [testBit_eq_decide_div_mod_eq]
    by_cases hset : fl / 2 ^ 12 % 2 = 1
    · rw [if_pos (decide_eq_true hset)]
      omega
    · rw [if_neg (by simpa using hset)]
      omega
  rw [walkFrom_of_huge (by rwa [pdIndex_eq] at he) ((hbit 0 (by norm_num)).trans hpresent)
    ((hbit 7 (by norm_num)).trans hsize), huge_target hp hlt hfl] at hwalk
  simp only [PaddrAgrees, PaddrExact, vmmGetPaddr, hwalk, hentry, he, map_some,
    huge_mask hp hlt hfl, hbit 12 (by norm_num), hwc, some_inj, add_left_cancel_iff]
  exact eq_comm

lemma paddr_iff_of_page {u : Bool}
    (he : entry m g (ptIndex v) = 0 ∨ ∃ p fl, Frame p ∧ (fl < 2 ^ 12 ∧ fl.testBit 0 = true) ∧
      entry m g (ptIndex v) = p ||| fl)
    (hentry : vmmGetEntry m pml4 v = some (g, ptIndex v, 0))
    (hwalk : walk m pml4 v = walkFrom m v 1 g true u) :
    PaddrAgrees m pml4 v ↔ PaddrExact m pml4 v := by
  rcases he with he | ⟨p, fl, hp, ⟨hfl, hpresent⟩, he⟩
  · rw [walkFrom_of_empty (by rwa [ptIndex_eq] at he)] at hwalk
    simp [PaddrAgrees, PaddrExact, vmmGetPaddr, hwalk, hentry, he]
  · have hbit : (p ||| fl).testBit 0 = true := (or_testBit hp (by norm_num)).trans hpresent
    have he' : entry m g (v / 2 ^ (12 + 9 * 0) % 512) = p ||| fl := by rwa [ptIndex_eq] at he
    simp only [walkFrom, he', hbit, true_eq_false, if_false, if_true, or_target hp hfl] at hwalk
    simp only [PaddrAgrees, PaddrExact, vmmGetPaddr, hwalk, hentry, he, map_some,
      or_mask hp hfl, some_inj, hbit, if_true, forall_const]
    constructor
    · intro h
      omega
    · intro h
      omega

/-- In a tree of tables the two agree exactly at the addresses above. -/
lemma TreeWords.paddr_iff (h : TreeWords m tables huge level) (hroot : pml4 ∈ tables)
    (hlevel : level pml4 = 4) (v : Nat) : PaddrAgrees m pml4 v ↔ PaddrExact m pml4 v := by
  obtain ⟨hi4, hi3, hi2, hi1⟩ := index_lt v
  rcases h.upper hroot hlevel (by norm_num) hi4 with he4 | ⟨g3, u4, hg3, hl3, he4⟩
  · apply paddr_iff_of_missing
    · simp [vmmGetEntry, he4]
    · exact walkFrom_of_empty (by rwa [pml4Index_eq] at he4)
  have hf3 := h.frame g3 hg3
  rcases h.upper hg3 hl3 le_rfl hi3 with he3 | ⟨g2, u3, hg2, hl2, he3⟩
  · apply paddr_iff_of_missing
    · simp only [vmmGetEntry, ptePresent, ptePageSize, and_two_pow_eq_zero_iff, he4, he3,
        link_present hf3, link_small hf3, or_mask hf3 (linkFlags_lt u4), true_eq_false, if_false,
        if_true, zero_testBit]
    · rw [pml4Index_eq] at he4
      rw [pdptIndex_eq] at he3
      rw [walk, walkFrom_of_link three_ne_zero hf3 he4, walkFrom_of_empty (l := 2) he3]
  have hf2 := h.frame g2 hg2
  have hentry := vmmGetEntry_of_link hf3 he4 hf2 he3
  have hwalk := walk_of_links hf3 he4 hf2 he3
  have hword := h.word g2 hg2 (pdIndex v) hi2
  cases hword with
  | empty he2 =>
    apply paddr_iff_of_missing
    · rw [hentry, he2]
      rfl
    · rw [hwalk]
      exact walkFrom_of_empty (by rwa [pdIndex_eq] at he2)
  | huge p fl hp hl hfl he2 =>
    obtain ⟨haligned, hlt, -⟩ := h.page p hp
    apply paddr_iff_of_huge haligned hlt hfl he2 _ hwalk
    rw [hentry, he2, testBit_or_flags haligned (by norm_num),
      testBit_or_flags haligned (by norm_num), hfl.2.1, hfl.2.2]
    rfl
  | page p fl hp hl hfl he2 => omega
  | link g1 u2 hg1 hl1 he2 =>
    have hf1 := h.frame g1 hg1
    apply paddr_iff_of_page (g := g1) (u := u4 && u3 && u2)
    · cases h.word g1 hg1 (ptIndex v) hi1 with
      | empty he1 => exact .inl he1
      | page p fl hp hl hfl he1 => exact .inr ⟨p, fl, hp, hfl, he1⟩
      | huge p fl hp hl hfl he1 => omega
      | link g u hg hl he1 =>
        have := (h.range g hg).1
        omega
    · rw [hentry, he2, link_present hf1, link_small hf1, or_mask hf1 (linkFlags_lt u2)]
      rfl
    · rw [pdIndex_eq] at he2
      rw [hwalk, walkFrom_of_link one_ne_zero hf1 he2]

/-- In every tree that `vmm_map_page` builds, `vmm_get_paddr` agrees with the walk of the
processor exactly at the addresses of `PaddrExact`. -/
theorem vmm_get_paddr_agrees_iff (run : Built pml4 s) (v : Nat) :
    PaddrAgrees s.mem pml4 v ↔ PaddrExact s.mem pml4 v := by
  obtain ⟨level, h, hroot, hlevel⟩ := run.words
  exact h.paddr_iff hroot hlevel v

/-! ### A small and a large page -/

lemma frame_of_mem {f : Nat} (hf : f ∈ [0x1000, 0x2000, 0x3000, 0x4000, 0x5000]) : Frame f := by
  have hsmall : ∀ g ∈ [0x1000, 0x2000, 0x3000, 0x4000, 0x5000], 2 ^ 12 ∣ g ∧ g < 2 ^ 52 := by decide
  exact ⟨(hsmall f hf).1, (hsmall f hf).2⟩

/-- Memory is clear, and the PML4 is the only table. -/
def emptyTree : BuiltTree := ⟨fun _ => 0, {0x1000}, ∅⟩

lemma emptyTree_built : Built 0x1000 emptyTree :=
  .new (frame_of_mem (by decide)) fun _ _ => load64_eq_zero fun _ _ _ => rfl

lemma emptyTree_untaken {frames : List Nat} (hnodup : frames.Nodup)
    (hmem : ∀ f ∈ frames, f ∈ [0x2000, 0x3000, 0x4000, 0x5000]) :
    Untaken emptyTree.tables emptyTree.huge frames := by
  refine ⟨hnodup, fun f hf => ?_, fun f hf => ?_, fun f _ p hp => ?_⟩
  · exact frame_of_mem (mem_cons_of_mem _ (hmem f hf))
  · have hne : ∀ g ∈ [0x2000, 0x3000, 0x4000, 0x5000], g ≠ 0x1000 := by decide
    exact hne f (hmem f hf)
  · exact absurd hp (Set.notMem_empty p)

def mapSmall : PageCall := ⟨0x5000, 0x7000, false, pteWritable, [0x2000, 0x3000, 0x4000]⟩

def mapFramebuffer : PageCall :=
  ⟨0x200000, 0x40000000, true, pteWritable ||| pteWCHuge, [0x2000, 0x3000]⟩

lemma mapSmall_proper : mapSmall.Proper emptyTree 0x1000 where
  small _ := ⟨frame_of_mem (by decide), by decide⟩
  large h := nomatch h
  untaken := emptyTree_untaken (by decide) (by decide)
  supplied := ⟨fun _ => by decide, fun _ => by decide +kernel, fun _ _ => by decide +kernel⟩
  taken := by decide +kernel

lemma mapFramebuffer_proper : mapFramebuffer.Proper emptyTree 0x1000 where
  small h := nomatch h
  large _ := by
    refine ⟨by decide, by decide, by decide, fun t ht hin => ?_⟩
    have hlow : t < 0x200000 := by
      rcases ht with rfl | ht
      · norm_num
      · have hsmall : ∀ g ∈ mapFramebuffer.frames, g < 0x200000 := by decide
        exact hsmall t ht
    exact absurd hin.1 (not_le.mpr hlow)
  untaken := emptyTree_untaken (by decide) (by decide)
  supplied := ⟨fun _ => by decide, fun _ => by decide +kernel, fun h => nomatch h⟩
  taken := by decide +kernel

theorem vmm_get_paddr_agrees_first_byte :
    PaddrAgrees (emptyTree.map 0x1000 mapSmall).mem 0x1000 0x7000 := by
  apply (vmm_get_paddr_agrees_iff (.map emptyTree_built mapSmall_proper) 0x7000).mpr
  have hentry : vmmGetEntry (emptyTree.map 0x1000 mapSmall).mem 0x1000 0x7000 =
      some (0x4000, 7, 0) := by decide +kernel
  simp only [PaddrExact, hentry]
  exact fun _ => by norm_num

/-- Inside a page the offset is missing, for an address without tables NULL is dereferenced,
and the framebuffer is found 4 KiB too far. -/
theorem vmm_get_paddr_wrong : ∃ s t, Built 0x1000 s ∧ Built 0x1000 t ∧
    (walk s.mem 0x1000 0x7123 = some ⟨0x5123, true, false⟩ ∧
      vmmGetPaddr s.mem 0x1000 0x7123 = some 0x5000) ∧
    (walk s.mem 0x1000 0x40000000 = none ∧ vmmGetPaddr s.mem 0x1000 0x40000000 = none) ∧
    walk t.mem 0x1000 0x40000000 = some ⟨0x200000, true, false⟩ ∧
      vmmGetPaddr t.mem 0x1000 0x40000000 = some 0x201000 := by
  refine ⟨_, _, .map emptyTree_built mapSmall_proper, .map emptyTree_built mapFramebuffer_proper,
    ?_, ?_, ?_⟩
  · decide +kernel
  · decide +kernel
  · decide +kernel

end DestinX.Paging
