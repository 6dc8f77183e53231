import DestinX.Paging.Tables

/-!
# Page-table trees

Every table in use has one owner: an address space, a level and the number of the region it
covers. The entries of upper tables below `bound` are empty or link to the table they should,
and every table except the roots is linked by its parent. So an entry that changes can only
change translations of its own address space. Frames in `reserved` are shared tables that never
change.
-/

namespace DestinX.Paging

open Base Function List Option Prod Nat

/-- The owner of a table: the root of its address space, its level and the number
of its region among the regions of that level. -/
abbrev Owner := Nat → Option (Nat × Nat × Nat)

structure Forest (bound : Nat) (spaces reserved : Set Nat) (m : Mem) (own : Owner) : Prop where
  root : ∀ r ∈ spaces, own r = some (r, 4, 0)
  frame : ∀ f r l n, own f = some (r, l, n) → Frame f ∧ f ∉ reserved
  level : ∀ f r l n, own f = some (r, l, n) →
    1 ≤ l ∧ l ≤ 4 ∧ (l = 4 → f = r ∧ n = 0) ∧ (l = 3 → n < bound)
  space : ∀ f r l n, own f = some (r, l, n) → r ∈ spaces
  entries : ∀ t r l n, own t = some (r, l + 1, n) → 1 ≤ l → ∀ i < 512, (l = 3 → i < bound) →
    entry m t i = 0 ∨
      ∃ g u, own g = some (r, l, 512 * n + i) ∧ entry m t i = g ||| linkFlags u
  linked : ∀ g r l n, own g = some (r, l, n) → l < 4 →
    ∃ t u, own t = some (r, l + 1, n / 512) ∧ entry m t (n % 512) = g ||| linkFlags u

/-- A supply of frames that are not in use. -/
structure Fresh (reserved : Set Nat) (own : Owner) (frames : List Nat) : Prop where
  nodup : frames.Nodup
  frame : ∀ f ∈ frames, Frame f
  unused : ∀ f ∈ frames, own f = none ∧ f ∉ reserved

variable {bound : Nat} {spaces reserved : Set Nat} {m m' : Mem} {own own' : Owner}
  {r l n t f g i flags : Nat} {frames : List Nat}

/-! ## Tables are determined by their owners -/

section

variable (h : Forest bound spaces reserved m own)
include h

lemma Forest.unique :
    ∀ d l n f g, l + d = 4 → own f = some (r, l, n) → own g = some (r, l, n) → f = g := by
  intro d
  induction d with
  | zero =>
    intro l n f g hl hf hg
    exact ((h.level f r l n hf).2.2.1 hl).1.trans ((h.level g r l n hg).2.2.1 hl).1.symm
  | succ d ih =>
    intro l n f g hl hf hg
    obtain ⟨t, u, ht, he⟩ := h.linked f r l n hf (by omega)
    obtain ⟨t', u', ht', he'⟩ := h.linked g r l n hg (by omega)
    obtain rfl := ih (l + 1) (n / 512) t t' (by omega) ht ht'
    have hor : f ||| linkFlags u = g ||| linkFlags u' := he.symm.trans he'
    rw [← or_mask (h.frame f r l n hf).1 (linkFlags_lt u), hor,
      or_mask (h.frame g r l n hg).1 (linkFlags_lt u')]

lemma Forest.owner_unique (hf : own f = some (r, l, n)) (hg : own g = some (r, l, n)) : f = g :=
  h.unique (4 - l) l n f g (by have := h.level f r l n hf; omega) hf hg

/-- The tables above a table exist. -/
lemma Forest.ancestor :
    ∀ d l n f, l + d ≤ 4 → own f = some (r, l, n) → ∃ t, own t = some (r, l + d, n / 512 ^ d) := by
  intro d
  induction d with
  | zero =>
    intro l n f _ hf
    exact ⟨f, by simpa using hf⟩
  | succ d ih =>
    intro l n f hl hf
    obtain ⟨t, _, ht, _⟩ := h.linked f r l n hf (by omega)
    obtain ⟨t', ht'⟩ := ih (l + 1) (n / 512) t (by omega) ht
    refine ⟨t', ?_⟩
    rw [ht', Nat.div_div_eq_div_mul, pow_succ', show l + 1 + d = l + (d + 1) by omega]

lemma Forest.no_child (ht : own t = some (r, l + 1, n / 512)) (hl : l < 4)
    (he : entry m t (n % 512) = 0) : own g ≠ some (r, l, n) := by
  intro hg
  obtain ⟨t', u, ht', he'⟩ := h.linked g r l n hg hl
  obtain rfl := h.owner_unique ht ht'
  have hp := link_present (h.frame g r l n hg).1 u
  rw [← he', he] at hp
  simp at hp

/-- Behind an empty entry there is no last-level table of the page. -/
lemma Forest.no_last {d page : Nat} (ht : own t = some (r, 1 + d + 1, n)) (hd : d ≤ 2)
    (hi : i < 512) (he : entry m t i = 0) (hpage : page / 512 ^ d = 512 * n + i) (g : Nat) :
    own g ≠ some (r, 1, page) := by
  intro hg
  obtain ⟨t', ht'⟩ := h.ancestor d 1 page g (by omega) hg
  rw [hpage] at ht'
  refine h.no_child (t := t) ?_ (by omega) ?_ ht'
  · rw [show (512 * n + i) / 512 = n by omega]
    exact ht
  · rw [show (512 * n + i) % 512 = i by omega]
    exact he

end

/-! ## One level of `vmm_map_page` -/

/-- What `vmmEnsure` does at `table[i]`: the entry becomes a link to the right
table, with its user bit raised when asked for and never lowered. At most one
frame becomes a table, with all entries empty, and no other entry changes. -/
structure Ensured (bound : Nat) (spaces reserved : Set Nat) (m m' : Mem) (own own' : Owner)
    (t i : Nat) (key : Nat × Nat × Nat) (user : Bool) (g : Nat) : Prop where
  forest : Forest bound spaces reserved m' own'
  child : own' g = some key
  mono : ∀ f k, own f = some k → own' f = some k
  new : ∀ f, own f = none → own' f ≠ none → own' f = some key ∧ ∀ j < 512, entry m' f j = 0
  same : ∀ f j, 2 ^ 12 ∣ f → j < 512 → own' f = own f → ¬ (f = t ∧ j = i) →
    entry m' f j = entry m f j
  link : ∃ u, entry m' t i = g ||| linkFlags u ∧ (user = true → u = true) ∧
    ((entry m t i).testBit 2 = true → u = true)

section

variable (h : Forest bound spaces reserved m own)
include h

section

variable (ht : own t = some (r, l + 1, n))
include ht

/-- Through an existing link. -/
lemma Forest.ensure_link (hl : 1 ≤ l) (hi : i < 512) {u : Bool}
    (hg : own g = some (r, l, 512 * n + i)) (he : entry m t i = g ||| linkFlags u) (user : Bool) :
    Ensured bound spaces reserved m
      (if user then setEntry m t i (g ||| linkFlags true) else m) own own t i (r, l, 512 * n + i)
      user g := by
  have hgf := (h.frame g _ _ _ hg).1
  have htf := (h.frame t _ _ _ ht).1
  cases user with
  | false =>
    exact ⟨h, hg, fun _ _ hk => hk, fun f hn hne => absurd hn hne, fun _ _ _ _ _ _ => rfl,
      u, he, by simp, fun hu => by rwa [he, link_user hgf] at hu⟩
  | true =>
    have hlt : g ||| linkFlags true < 2 ^ 64 := (or_lt hgf (linkFlags_lt true)).trans (by norm_num)
    have hsame : ∀ f j, 2 ^ 12 ∣ f → j < 512 → ¬ (f = t ∧ j = i) →
        entry (setEntry m t i (g ||| linkFlags true)) f j = entry m f j :=
      fun f j hf hj hne => entry_setEntry_of_ne htf.aligned hf hi hj hne
    have hself : entry (setEntry m t i (g ||| linkFlags true)) t i = g ||| linkFlags true :=
      entry_setEntry_self hlt
    refine ⟨⟨h.root, h.frame, h.level, h.space, ?_, ?_⟩, hg, fun _ _ hk => hk,
      fun f hn hne => absurd hn hne, fun f j hf hj _ hne => hsame f j hf hj hne,
      true, hself, by simp, by simp⟩
    · intro t' r' l' n' ht' hl' j hj hb
      by_cases hne : t' = t ∧ j = i
      · obtain ⟨rfl, rfl⟩ := hne
        obtain ⟨rfl, hrest⟩ := mk.inj (some.inj (ht'.symm.trans ht))
        obtain ⟨hll, rfl⟩ := mk.inj hrest
        obtain rfl : l' = l := by omega
        exact .inr ⟨g, true, hg, hself⟩
      · simp only [if_true, hsame t' j (h.frame t' _ _ _ ht').1.aligned hj hne]
        exact h.entries t' r' l' n' ht' hl' j hj hb
    · intro g' r' l' n' hg' hl'
      obtain ⟨t', u', ht', he'⟩ := h.linked g' r' l' n' hg' hl'
      by_cases hne : t' = t ∧ n' % 512 = i
      · obtain ⟨rfl, rfl⟩ := hne
        have hgg : g' = g := by
          have hor : g' ||| linkFlags u' = g ||| linkFlags u := he'.symm.trans he
          rw [← or_mask (h.frame g' _ _ _ hg').1 (linkFlags_lt u'), hor,
            or_mask hgf (linkFlags_lt u)]
        exact ⟨t', true, ht', hgg ▸ hself⟩
      · refine ⟨t', u', ht', ?_⟩
        rw [if_pos rfl, hsame t' _ (h.frame t' _ _ _ ht').1.aligned (mod_lt _ (by norm_num)) hne]
        exact he'

section

variable (hl : 1 ≤ l) (hi : i < 512) (hb : l = 3 → i < bound) (he : entry m t i = 0) (hf : Frame f)
  (hunused : own f = none) (hres : f ∉ reserved)
include hl hi hb he hf hunused hres

/-- An unused frame, cleared and linked from a free entry, is a table of the forest. -/
lemma Forest.grow {user : Bool} (hself : entry m' t i = f ||| linkFlags user)
    (hzero : ∀ j < 512, entry m' f j = 0)
    (hsame : ∀ g j, 2 ^ 12 ∣ g → j < 512 → g ≠ f → ¬ (g = t ∧ j = i) → entry m' g j = entry m g j) :
    Forest bound spaces reserved m' (update own f (some (r, l, 512 * n + i))) := by
  have hne : ∀ {g k}, own g = some k → g ≠ f := by
    rintro g k hg rfl
    rw [hunused] at hg
    cases hg
  have hmono : ∀ g k, own g = some k → update own f (some (r, l, 512 * n + i)) g = some k :=
    fun g k hg => (update_of_ne (hne hg) _ _).trans hg
  have hold : ∀ {g k}, update own f (some (r, l, 512 * n + i)) g = some k → g ≠ f →
      own g = some k := fun hg hgf => (update_of_ne hgf _ _).symm.trans hg
  have hlevel := h.level t _ _ _ ht
  refine ⟨?_, ?_, ?_, ?_, ?_, ?_⟩
  · exact fun r' hr' => hmono r' _ (h.root r' hr')
  · intro g r' l' n' hg
    by_cases hgf : g = f
    · exact hgf ▸ ⟨hf, hres⟩
    · exact h.frame g r' l' n' (hold hg hgf)
  · intro g r' l' n' hg
    by_cases hgf : g = f
    · subst hgf
      rw [update_self, some.injEq, mk.injEq, mk.injEq] at hg
      omega
    · exact h.level g r' l' n' (hold hg hgf)
  · intro g r' l' n' hg
    by_cases hgf : g = f
    · subst hgf
      rw [update_self, some.injEq, mk.injEq] at hg
      exact hg.1 ▸ h.space t _ _ _ ht
    · exact h.space g r' l' n' (hold hg hgf)
  · intro t' r' l' n' ht' hl' j hj hb
    by_cases htf' : t' = f
    · subst htf'
      exact .inl (hzero j hj)
    · have ht'' := hold ht' htf'
      by_cases hti : t' = t ∧ j = i
      · obtain ⟨rfl, rfl⟩ := hti
        obtain ⟨rfl, hrest⟩ := mk.inj (some.inj (ht''.symm.trans ht))
        obtain ⟨hll, rfl⟩ := mk.inj hrest
        obtain rfl : l' = l := by omega
        exact .inr ⟨f, user, update_self _ _ _, hself⟩
      · rw [hsame t' j (h.frame t' _ _ _ ht'').1.aligned hj htf' hti]
        rcases h.entries t' r' l' n' ht'' hl' j hj hb with h0 | ⟨g, u, hg, hgu⟩
        · exact .inl h0
        · exact .inr ⟨g, u, hmono g _ hg, hgu⟩
  · intro g r' l' n' hg hl'
    by_cases hgf : g = f
    · subst hgf
      rw [update_self] at hg
      obtain ⟨rfl, rfl, rfl⟩ := hg
      have hdiv : (512 * n + i) / 512 = n := by omega
      have hmod : (512 * n + i) % 512 = i := by omega
      refine ⟨t, user, ?_, ?_⟩
      · rw [hdiv]
        exact hmono t _ ht
      · rw [hmod]
        exact hself
    · have hg' := hold hg hgf
      obtain ⟨t', u', ht', he'⟩ := h.linked g r' l' n' hg' hl'
      refine ⟨t', u', hmono t' _ ht', ?_⟩
      rw [hsame t' _ (h.frame t' _ _ _ ht').1.aligned (mod_lt _ (by norm_num)) (hne ht') ?_]
      · exact he'
      · rintro ⟨rfl, hmod⟩
        have hp := link_present (h.frame g _ _ _ hg').1 u'
        rw [← he', hmod, he] at hp
        simp at hp

lemma Forest.ensure_new (user : Bool) :
    Ensured bound spaces reserved m (setEntry (clearTable m f) t i (f ||| linkFlags user)) own
      (update own f (some (r, l, 512 * n + i))) t i (r, l, 512 * n + i) user f := by
  have htf := (h.frame t _ _ _ ht).1
  have hlt : f ||| linkFlags user < 2 ^ 64 := (or_lt hf (linkFlags_lt user)).trans (by norm_num)
  have htne : t ≠ f := by
    rintro rfl
    rw [hunused] at ht
    cases ht
  let m' := setEntry (clearTable m f) t i (f ||| linkFlags user)
  have hself : entry m' t i = f ||| linkFlags user := entry_setEntry_self hlt
  have hzero : ∀ j < 512, entry m' f j = 0 := by
    intro j hj
    rw [entry_setEntry_of_ne htf.aligned hf.aligned hi hj (fun hc => htne hc.1.symm),
      entry_clearTable_self hj]
  have hsame : ∀ g j, 2 ^ 12 ∣ g → j < 512 → g ≠ f → ¬ (g = t ∧ j = i) →
      entry m' g j = entry m g j := by
    intro g j hg hj hgf hgt
    rw [entry_setEntry_of_ne htf.aligned hg hi hj hgt, entry_clearTable_of_ne hf.aligned hg hj hgf]
  have hmono : ∀ g k, own g = some k → update own f (some (r, l, 512 * n + i)) g = some k := by
    intro g k hg
    refine (update_of_ne ?_ _ _).trans hg
    rintro rfl
    rw [hunused] at hg
    cases hg
  refine ⟨h.grow ht hl hi hb he hf hunused hres hself hzero hsame, update_self _ _ _, hmono,
    ?_, ?_, user, hself, id, ?_⟩
  · intro g hg hg'
    by_cases hgf : g = f
    · subst hgf
      exact ⟨update_self _ _ _, hzero⟩
    · rw [update_of_ne hgf] at hg'
      exact absurd hg hg'
  · intro g j hg hj hown hti
    apply hsame g j hg hj _ hti
    rintro rfl
    rw [update_self, hunused] at hown
    cases hown
  · intro hu
    rw [he] at hu
    simp at hu

end

/-- One level of `vmm_map_page` in a forest, with a supply of unused frames. -/
lemma Forest.ensure (hl : 1 ≤ l) (hi : i < 512) (hb : l = 3 → i < bound)
    (hfresh : Fresh reserved own frames) (hsup : Supplied m frames t i) (flags : Nat) :
    ∃ own', Ensured bound spaces reserved m (vmmEnsure m frames t i flags).1 own own' t i
        (r, l, 512 * n + i) (flags.testBit 2) (vmmEnsure m frames t i flags).2.2 ∧
      Fresh reserved own' (vmmEnsure m frames t i flags).2.1 := by
  rcases h.entries t r l n ht hl i hi hb with he | ⟨g, u, hg, he⟩
  · obtain ⟨f, frames, rfl⟩ := exists_cons_of_ne_nil (hsup (by rw [he, zero_and]))
    have hf := hfresh.frame f (by simp)
    have hun := hfresh.unused f (by simp)
    have hnd := nodup_cons.mp hfresh.nodup
    rw [vmmEnsure_of_empty hf he]
    refine ⟨_, h.ensure_new ht hl hi hb he hf hun.1 hun.2 (flags.testBit 2), ⟨hnd.2, ?_, ?_⟩⟩
    · exact fun g hg => hfresh.frame g (mem_cons_of_mem _ hg)
    · intro g hg
      have hgf : g ≠ f := fun he => hnd.1 (he ▸ hg)
      rw [update_of_ne hgf]
      exact hfresh.unused g (mem_cons_of_mem _ hg)
  · rw [vmmEnsure_of_link (h.frame g _ _ _ hg).1 he]
    exact ⟨own, h.ensure_link ht hl hi hg he (flags.testBit 2), hfresh⟩

end

lemma Forest.set_leaf (ht : own t = some (r, 1, n)) (hi : i < 512) (e : Nat) :
    Forest bound spaces reserved (setEntry m t i e) own := by
  have htf := (h.frame t _ _ _ ht).1
  have hsame : ∀ t' r' l' n' j, own t' = some (r', l' + 1, n') → 1 ≤ l' → j < 512 →
      entry (setEntry m t i e) t' j = entry m t' j := by
    intro t' r' l' n' j ht' hl' hj
    apply entry_setEntry_of_ne htf.aligned (h.frame t' _ _ _ ht').1.aligned hi hj
    rintro ⟨rfl, -⟩
    rw [ht, some.injEq, mk.injEq, mk.injEq] at ht'
    omega
  refine ⟨h.root, h.frame, h.level, h.space, ?_, ?_⟩
  · intro t' r' l' n' ht' hl' j hj hb
    rw [hsame t' r' l' n' j ht' hl' hj]
    exact h.entries t' r' l' n' ht' hl' j hj hb
  · intro g r' l' n' hg hl'
    obtain ⟨t', u, ht', he⟩ := h.linked g r' l' n' hg hl'
    refine ⟨t', u, ht', ?_⟩
    rw [hsame t' r' l' _ _ ht' (h.level g _ _ _ hg).1 (mod_lt _ (by norm_num))]
    exact he

end

/-! ## The path to a page -/

/-- The number of the virtual page, bits 47 to 12 of the address. -/
def pageNumber (vaddr : Nat) : Nat := vaddr / 2 ^ 12 % 2 ^ 36

lemma pageNumber_lt (vaddr : Nat) : pageNumber vaddr < 2 ^ 36 := mod_lt _ (by norm_num)

/-- The numbers of the regions that contain a page, level by level. -/
lemma regions (vaddr : Nat) : 512 * 0 + pml4Index vaddr = pageNumber vaddr / 512 ^ 3 ∧
    512 * (pageNumber vaddr / 512 ^ 3) + pdptIndex vaddr = pageNumber vaddr / 512 ^ 2 ∧
    512 * (pageNumber vaddr / 512 ^ 2) + pdIndex vaddr = pageNumber vaddr / 512 ∧
    512 * (pageNumber vaddr / 512) + ptIndex vaddr = pageNumber vaddr := by
  rw [pml4Index_eq, pdptIndex_eq, pdIndex_eq, ptIndex_eq, pageNumber]
  omega

/-- `vmm_map_page` of a 4 KiB page: three levels of tables are made available one
after the other, then the entry of the last one is written. -/
lemma Forest.map_page (h : Forest bound spaces reserved m own) (hr : r ∈ spaces) {vaddr : Nat}
    (hb : pml4Index vaddr < bound) (hfresh : Fresh reserved own frames) {flags : Nat}
    (hsup : MapSupplied m frames r vaddr flags) (paddr : Nat) : ∃ m1 m2 m3 own1 own2 own3 t3 t2 t1,
      Ensured bound spaces reserved m m1 own own1 r (pml4Index vaddr)
        (r, 3, pageNumber vaddr / 512 ^ 3) (flags.testBit 2) t3 ∧
      Ensured bound spaces reserved m1 m2 own1 own2 t3 (pdptIndex vaddr)
        (r, 2, pageNumber vaddr / 512 ^ 2) (flags.testBit 2) t2 ∧
      Ensured bound spaces reserved m2 m3 own2 own3 t2 (pdIndex vaddr)
        (r, 1, pageNumber vaddr / 512) (flags.testBit 2) t1 ∧
      (vmmMapPage m frames r paddr vaddr pageSize4KB flags).1 =
        setEntry m3 t1 (ptIndex vaddr) (paddr ||| (ptePresent ||| flags)) := by
  obtain ⟨h4, h3, h2, _⟩ := regions vaddr
  obtain ⟨hi4, hi3, hi2, _⟩ := index_lt vaddr
  obtain ⟨hs4, hs3, hs2⟩ := hsup
  obtain ⟨own1, e1, f1⟩ := h.ensure (h.root r hr) (l := 3) (by norm_num) hi4 (fun _ => hb) hfresh
    hs4 flags
  rw [h4] at e1
  obtain ⟨own2, e2, f2⟩ := e1.forest.ensure e1.child (l := 2) (by norm_num) hi3
    (fun hl => absurd hl (by norm_num)) f1 hs3 flags
  rw [h3] at e2
  obtain ⟨own3, e3, _⟩ := e2.forest.ensure e2.child (l := 1) (by norm_num) hi2
    (fun hl => absurd hl (by norm_num)) f2 hs2 flags
  rw [h2] at e3
  exact ⟨_, _, _, own1, own2, own3, _, _, _, e1, e2, e3, by rw [vmmMapPage, if_pos rfl]⟩

/-! ## Looking an entry up -/

/-- `vmm_get_entry` follows the links: it stops at an empty entry, where there is
no last-level table, or finds the last-level table of the page. -/
lemma Forest.get_entry (h : Forest bound spaces reserved m own) (hr : r ∈ spaces) {vaddr : Nat}
    (hb : pml4Index vaddr < bound) :
    (vmmGetEntry m r vaddr = none ∧ ∀ g, own g ≠ some (r, 1, pageNumber vaddr / 512)) ∨
      ∃ g, own g = some (r, 1, pageNumber vaddr / 512) ∧
        vmmGetEntry m r vaddr = some (g, ptIndex vaddr, 0) := by
  obtain ⟨h4, h3, h2, _⟩ := regions vaddr
  obtain ⟨hi4, hi3, hi2, _⟩ := index_lt vaddr
  -- a link passes both tests of the source and is followed to its table
  have hlink : ∀ {g u r l n}, own g = some (r, l, n) →
      ¬ (g ||| linkFlags u) &&& ptePresent = 0 ∧ (g ||| linkFlags u) &&& ptePageSize = 0 ∧
        (g ||| linkFlags u) &&& pageMask4KB = g := by
    intro g u r l n hg
    have hf := (h.frame g _ _ _ hg).1
    refine ⟨?_, and_two_pow_eq_zero_iff.mpr (link_small hf u), or_mask hf (linkFlags_lt u)⟩
    rw [ptePresent, and_two_pow_eq_zero_iff, link_present hf]
    simp
  have hroot := h.root r hr
  rcases h.entries r r 3 0 hroot (by norm_num) _ hi4 (fun _ => hb) with he4 | ⟨t3, u4, ht3, he4⟩
  · exact .inl ⟨by simp [vmmGetEntry, he4], h.no_last (d := 2) hroot le_rfl hi4 he4 (by omega)⟩
  · have hl3 := hlink (u := u4) ht3
    rw [h4] at ht3
    rcases h.entries t3 r 2 _ ht3 (by norm_num) _ hi3 (by simp) with he3 | ⟨t2, u3, ht2, he3⟩
    · exact .inl ⟨by simp [vmmGetEntry, he4, hl3, he3],
        h.no_last (d := 1) ht3 one_le_two hi3 he3 (by omega)⟩
    · have hl2 := hlink (u := u3) ht2
      rw [h3] at ht2
      rcases h.entries t2 r 1 _ ht2 (by norm_num) _ hi2 (by simp) with he2 | ⟨t1, u2, ht1, he2⟩
      · exact .inl ⟨by simp [vmmGetEntry, he4, hl3, he3, hl2, he2],
          h.no_last (d := 0) ht2 (zero_le 2) hi2 he2 (by omega)⟩
      · right
        have hl1 := hlink (u := u2) ht1
        rw [h2] at ht1
        exact ⟨t1, ht1, by simp [vmmGetEntry, he4, hl3, he3, hl2, he2, hl1]⟩

end DestinX.Paging
