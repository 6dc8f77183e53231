import DestinX.Paging.Tables
import DestinX.Pmm.Init

/-!
# The direct map

`vmm_init_direct_mapping` maps all of physical memory at `DIRECT_OFFSET` in pages of 2 MiB and
takes over the entry of the kernel image. The tables are reached at `KERNEL_OFFSET`, where 128 MiB
are mapped: a table that lies behind cannot be written. After `k` pages the first `k` words of all
page directories are set, and so many tables exist as these need.
-/

namespace DestinX.Paging

open Base Function List Nat
open Pmm (kernelOffset windowSize)

def directOffset : Nat := 0xFFFF800000000000

/-- The byte of physical memory at `KERNEL_OFFSET + paddr`, with the tables of `boot.asm`. Above 2
GiB the address wraps around, and the first 2 MiB are mapped to themselves. -/
def kernelReach (paddr : Nat) : Option Nat :=
  let vaddr := (paddr + kernelOffset) % 2 ^ 64
  if kernelOffset ≤ vaddr ∧ vaddr < kernelOffset + windowSize then some (vaddr - kernelOffset)
  else if vaddr < pageSize2MB then some vaddr
  else none

/-- The test for a missing table, the same code for the PML4 and the page directory
pointer table. A table is given by where it is reached. -/
def directEnsure (m : Mem) (frames : List Nat) (table i : Nat) : Option (Mem × List Nat × Nat) :=
  if entry m table i &&& ptePresent = 0 then
    let r := pmmAllocPage frames
    (kernelReach r.1).bind fun newTable =>
      let m₂ := setEntry (clearTable m newTable) table i (r.1 ||| (ptePresent ||| pteWritable))
      (kernelReach (entry m₂ table i &&& pageMask4KB)).map fun next => (m₂, r.2, next)
  else (kernelReach (entry m table i &&& pageMask4KB)).map fun next => (m, frames, next)

/-- The body of the loop. -/
def directMapPage (m : Mem) (frames : List Nat) (pml4 paddr : Nat) : Option (Mem × List Nat) :=
  let vaddr := (paddr + directOffset) % 2 ^ 64
  (directEnsure m frames pml4 (pml4Index vaddr)).bind fun r₄ =>
    (directEnsure r₄.1 r₄.2.1 r₄.2.2 (pdptIndex vaddr)).map fun r₃ =>
      (setEntry r₃.1 r₃.2.2 (pdIndex vaddr)
        (paddr ||| (ptePresent ||| pteWritable ||| ptePageSize)), r₃.2.1)

def directLoop (maxAddr pml4 : Nat) : Nat → Nat → Mem → List Nat → Option (Mem × List Nat)
  | 0, _, _, _ => none
  | fuel + 1, paddr, m, frames =>
    if paddr < maxAddr then
      (directMapPage m frames pml4 paddr).bind fun s =>
        directLoop maxAddr pml4 fuel ((paddr + pageSize2MB) % 2 ^ 64) s.1 s.2
    else some (m, frames)

/-- `vmm_init_direct_mapping`: the memory afterwards, the frames that are left and the new
value of `cr3`. There is no result when it faults. -/
def vmmInitDirectMapping (fuel : Nat) (m : Mem) (frames : List Nat) (cr3 maxAddr : Nat) :
    Option (Mem × List Nat × Nat) :=
  let r := pmmAllocPage frames
  (kernelReach r.1).bind fun pml4 => (kernelReach cr3).bind fun oldPml4 =>
    let m₁ := clearTable m pml4
    let m₂ := setEntry m₁ pml4 511 (entry m₁ oldPml4 511)
    (directLoop maxAddr pml4 fuel 0 m₂ r.2).map fun s => (s.1, s.2, r.1)

/-! ## Tables in the window -/

/-- A frame for a table that is reached at its own place. -/
structure InWindow (f : Nat) : Prop extends Frame f where
  below : f < windowSize

/-- The first of `n` frames that lies outside of the window. -/
def outside (frames : List Nat) (n : Nat) : Option Nat :=
  (frames.take n).find? fun f => windowSize ≤ f

/-- The call takes `n` frames. It returns if they lie in the window, and not if the first one
outside is not reached at all. -/
def Takes {α : Type} (frames : List Nat) (n : Nat) (r : Option α) (post : α → Prop) : Prop :=
  match outside frames n with
  | none => ∃ a, r = some a ∧ post a
  | some f => kernelReach f = none → r = none

section

variable {α β : Type} {r : Option α} {post : α → Prop} {post' : β → Prop} {g : α → Option β}
  {m : Mem} {frames : List Nat} {n k t i f : Nat}

lemma Takes.returns (h : Takes frames n r post) (hin : outside frames n = none) :
    ∃ a, r = some a ∧ post a := by
  rw [Takes, hin] at h
  exact h

lemma Takes.faults (h : Takes frames n r post) (hout : outside frames n = some f)
    (hreach : kernelReach f = none) : r = none := by
  rw [Takes, hout] at h
  exact h hreach

lemma Takes.bind (h : Takes frames n r post)
    (hg : ∀ a, post a → Takes (frames.drop n) k (g a) post') :
    Takes frames (n + k) (r.bind g) post' := by
  have hsplit : outside frames (n + k) = (outside frames n).or (outside (frames.drop n) k) := by
    rw [outside, take_add, find?_append]
    rfl
  rw [Takes, hsplit]
  cases hout : outside frames n with
  | some f => exact fun hf => by rw [h.faults hout hf]; rfl
  | none =>
    obtain ⟨a, rfl, ha⟩ := h.returns hout
    exact hg a ha

lemma Takes.map {g : α → β} (h : Takes frames n r post) (hg : ∀ a, post a → post' (g a)) :
    Takes frames n (r.map g) post' := by
  have hbind := h.bind (k := 0) (g := some ∘ g) fun a ha => ⟨g a, rfl, hg a ha⟩
  rwa [add_zero, ← Option.map_eq_bind] at hbind

lemma takes_zero {a : α} (ha : post a) : Takes frames 0 (some a) post := ⟨a, rfl, ha⟩

lemma kernelReach_eq (hf : f < windowSize) : kernelReach f = some f := by
  have hv : (f + kernelOffset) % 2 ^ 64 = f + kernelOffset := by
    simp only [windowSize] at hf
    simp only [kernelOffset]
    omega
  simp only [kernelReach, hv]
  rw [if_pos ⟨le_add_left _ _, by omega⟩, Nat.add_sub_cancel]

/-- One frame is taken, which has to be reached. -/
lemma takes_one (hin : f < windowSize → ∃ a, r = some a ∧ post a)
    (hout : kernelReach f = none → r = none) : Takes (f :: frames) 1 r post := by
  rw [Takes, outside, take_succ_cons, take_zero, find?_singleton]
  split_ifs with hf
  · exact hout
  · exact hin (by simpa using hf)

lemma directEnsure_of_link (hf : InWindow f) (he : entry m t i = f ||| linkFlags false) :
    directEnsure m frames t i = some (m, frames, f) := by
  have hp : ¬ entry m t i &&& ptePresent = 0 := by
    rw [ptePresent, and_two_pow_eq_zero_iff, he, link_present hf.toFrame]
    simp
  rw [directEnsure, if_neg hp, he, or_mask hf.toFrame (linkFlags_lt false), kernelReach_eq hf.below]
  rfl

lemma directEnsure_of_empty {post : Mem × List Nat × Nat → Prop} (hf : Frame f)
    (he : entry m t i = 0)
    (hpost : f < windowSize →
      post (setEntry (clearTable m f) t i (f ||| linkFlags false), frames, f)) :
    Takes (f :: frames) 1 (directEnsure m (f :: frames) t i) post := by
  have hp : entry m t i &&& ptePresent = 0 := by rw [he, zero_and]
  have hlt : f ||| linkFlags false < 2 ^ 64 := (or_lt hf (linkFlags_lt false)).trans (by norm_num)
  have hlink : f ||| (ptePresent ||| pteWritable) = f ||| linkFlags false := rfl
  unfold directEnsure
  simp only [if_pos hp, pmmAllocPage, hlink]
  refine takes_one (fun hin => ⟨_, ?_, hpost hin⟩) fun hout => ?_
  · rw [kernelReach_eq hin, Option.bind_some, entry_setEntry_self hlt,
      or_mask hf (linkFlags_lt false), kernelReach_eq hin]
    rfl
  · rw [hout]
    rfl

end

/-! ## The tables that the loop builds -/

/-- The tables by their place: the PML4, the page directory pointer table of the 512 GiB
`a` and the page directory of the GiB `c`. -/
inductive DirectTable where
  | pml4
  | pdpt (a : Nat)
  | pd (c : Nat)
  deriving DecidableEq

/-- There are `n₃` page directory pointer tables and `n₂` page directories. -/
def DirectTable.Used (n₃ n₂ : Nat) : DirectTable → Prop
  | .pml4 => True
  | .pdpt a => a < n₃
  | .pd c => c < n₂

/-- What the word `i` of a table holds after `k` pages. `kernel` is the entry that was taken
over, `loc` says in which frame a table is. -/
def directWord (kernel : Nat) (loc : DirectTable → Nat) (n₃ n₂ k : Nat) : DirectTable → Nat → Nat
  | .pml4, i =>
    if i = 511 then kernel
    else if 256 ≤ i ∧ i - 256 < n₃ then loc (.pdpt (i - 256)) ||| linkFlags false else 0
  | .pdpt a, i => if 512 * a + i < n₂ then loc (.pd (512 * a + i)) ||| linkFlags false else 0
  | .pd c, i => if 512 * c + i < k then (512 * c + i) * 2 ^ 21 ||| 0x83 else 0

structure DirectTree (kernel : Nat) (m : Mem) (frames : List Nat) (loc : DirectTable → Nat)
    (n₃ n₂ k : Nat) : Prop where
  nodup : frames.Nodup
  supply : ∀ f ∈ frames, Frame f
  frame : ∀ T, DirectTable.Used n₃ n₂ T → InWindow (loc T)
  apart : ∀ T T', DirectTable.Used n₃ n₂ T → DirectTable.Used n₃ n₂ T' → loc T = loc T' → T = T'
  unused : ∀ T, DirectTable.Used n₃ n₂ T → loc T ∉ frames
  word : ∀ T, DirectTable.Used n₃ n₂ T → ∀ i < 512,
    entry m (loc T) i = directWord kernel loc n₃ n₂ k T i

variable {kernel : Nat} {m : Mem} {frames : List Nat} {loc : DirectTable → Nat}
  {n₃ n₂ n3' n2' k f i : Nat} {T V : DirectTable}

section

variable (h : DirectTree kernel m (f :: frames) loc n₃ n₂ k)
include h

/-- A new table `V` in the next frame, linked from the word `i` of `T`. -/
lemma DirectTree.grow (hwindow : f < windowSize) (hT : T.Used n₃ n₂) (hV : ¬ V.Used n₃ n₂)
    (hi : i < 512)
    (hused : ∀ U : DirectTable, U.Used n3' n2' → U.Used n₃ n₂ ∨ U = V)
    (hsame : ∀ U : DirectTable, U.Used n₃ n₂ → ∀ j < 512, ¬ (U = T ∧ j = i) →
      directWord kernel (update loc V f) n3' n2' k U j = directWord kernel loc n₃ n₂ k U j)
    (hnew : ∀ j < 512, directWord kernel (update loc V f) n3' n2' k V j = 0)
    (hlink : directWord kernel (update loc V f) n3' n2' k T i = f ||| linkFlags false) :
    DirectTree kernel (setEntry (clearTable m f) (loc T) i (f ||| linkFlags false)) frames
      (update loc V f) n3' n2' k := by
  have hf : Frame f := h.supply f mem_cons_self
  have hnotin : f ∉ frames := (nodup_cons.mp h.nodup).1
  have hloc : ∀ U : DirectTable, U.Used n₃ n₂ → update loc V f U = loc U := by
    intro U hU
    apply update_of_ne
    rintro rfl
    exact hV hU
  have hne : ∀ U : DirectTable, U.Used n₃ n₂ → loc U ≠ f := by
    intro U hU he
    exact h.unused U hU (he ▸ mem_cons_self)
  have hself : update loc V f V = f := update_self V f loc
  constructor
  · exact (nodup_cons.mp h.nodup).2
  · intro g hg
    exact h.supply g (mem_cons_of_mem f hg)
  · intro U hU
    rcases hused U hU with hU | rfl
    · rw [hloc U hU]
      exact h.frame U hU
    · rw [hself]
      exact ⟨hf, hwindow⟩
  · intro U W hU hW he
    rcases hused U hU with hU | rfl
    · rcases hused W hW with hW | rfl
      · rw [hloc U hU, hloc W hW] at he
        exact h.apart U W hU hW he
      · rw [hloc U hU, hself] at he
        exact absurd he (hne U hU)
    · rcases hused W hW with hW | rfl
      · rw [hself, hloc W hW] at he
        exact absurd he.symm (hne W hW)
      · rfl
  · intro U hU
    rcases hused U hU with hU | rfl
    · rw [hloc U hU]
      intro hmem
      exact h.unused U hU (mem_cons_of_mem f hmem)
    · rw [hself]
      exact hnotin
  · intro U hU j hj
    have hTf := h.frame T hT
    rcases hused U hU with hU | rfl
    · rw [hloc U hU]
      by_cases hat : U = T ∧ j = i
      · obtain ⟨rfl, rfl⟩ := hat
        rw [hlink]
        exact entry_setEntry_self ((or_lt hf (linkFlags_lt false)).trans (by norm_num))
      · have hat' : ¬ (loc U = loc T ∧ j = i) := fun he => hat ⟨h.apart U T hU hT he.1, he.2⟩
        rw [hsame U hU j hj hat, entry_setEntry_of_ne hTf.aligned (h.frame U hU).aligned hi hj hat',
          entry_clearTable_of_ne hf.aligned (h.frame U hU).aligned hj (hne U hU)]
        exact h.word U hU j hj
    · rw [hself, hnew j hj,
        entry_setEntry_of_ne hTf.aligned hf.aligned hi hj fun he => hne T hT he.1.symm]
      exact entry_clearTable_self hj

lemma DirectTree.add_pdpt (hwindow : f < windowSize) (hn : n₃ < 255) (hempty : n₂ ≤ 512 * n₃) :
    DirectTree kernel (setEntry (clearTable m f) (loc .pml4) (256 + n₃) (f ||| linkFlags false))
      frames (update loc (.pdpt n₃) f) (n₃ + 1) n₂ k := by
  apply h.grow hwindow (T := .pml4) (V := .pdpt n₃) trivial (lt_irrefl n₃) (by omega)
  · intro U hU
    cases U with
    | pml4 => exact .inl trivial
    | pdpt a =>
      rcases Nat.lt_succ_iff_lt_or_eq.mp hU with hlt | rfl
      · exact .inl hlt
      · exact .inr rfl
    | pd c => exact .inl hU
  · intro U hU j hj hat
    cases U with
    | pml4 =>
      have hj' : j ≠ 256 + n₃ := fun he => hat ⟨rfl, he⟩
      by_cases hlow : 256 ≤ j ∧ j - 256 < n₃
      · have hne : DirectTable.pdpt (j - 256) ≠ .pdpt n₃ := by
          intro he
          have := DirectTable.pdpt.inj he
          omega
        simp only [directWord, if_pos hlow,
          if_pos (⟨hlow.1, by omega⟩ : 256 ≤ j ∧ j - 256 < n₃ + 1),
          update_of_ne hne]
      · simp only [directWord, if_neg hlow, if_neg (show ¬ (256 ≤ j ∧ j - 256 < n₃ + 1) by omega)]
    | pdpt a => rfl
    | pd c => rfl
  · intro j hj
    exact if_neg (by omega)
  · simp only [directWord]
    rw [if_neg (by omega), if_pos (by omega), Nat.add_sub_cancel_left, update_self]

lemma DirectTree.add_pd (hwindow : f < windowSize) (hn : n₂ < 512 * n₃) (hempty : k ≤ 512 * n₂) :
    DirectTree kernel
      (setEntry (clearTable m f) (loc (.pdpt (n₂ / 512))) (n₂ % 512) (f ||| linkFlags false))
      frames (update loc (.pd n₂) f) n₃ (n₂ + 1) k := by
  have hT : DirectTable.Used n₃ n₂ (.pdpt (n₂ / 512)) := by
    show n₂ / 512 < n₃
    omega
  apply h.grow hwindow (V := .pd n₂) hT (lt_irrefl n₂) (mod_lt _ (by norm_num))
  · intro U hU
    cases U with
    | pml4 => exact .inl trivial
    | pdpt a => exact .inl hU
    | pd c =>
      rcases Nat.lt_succ_iff_lt_or_eq.mp hU with hlt | rfl
      · exact .inl hlt
      · exact .inr rfl
  · intro U hU j hj hat
    cases U with
    | pml4 => rfl
    | pdpt a =>
      have hj' : 512 * a + j ≠ n₂ := by
        intro he
        apply hat
        constructor
        · rw [show n₂ / 512 = a by omega]
        · omega
      by_cases hlow : 512 * a + j < n₂
      · have hne : DirectTable.pd (512 * a + j) ≠ .pd n₂ := fun he => hj' (DirectTable.pd.inj he)
        simp only [directWord, if_pos hlow, if_pos (show 512 * a + j < n₂ + 1 by omega),
          update_of_ne hne]
      · simp only [directWord, if_neg hlow, if_neg (show ¬ 512 * a + j < n₂ + 1 by omega)]
    | pd c => rfl
  · intro j hj
    exact if_neg (by omega)
  · have hplace : 512 * (n₂ / 512) + n₂ % 512 = n₂ := div_add_mod n₂ 512
    simp only [directWord]
    rw [hplace, if_pos (lt_succ_self n₂), update_self]

end

lemma DirectTree.add_page (h : DirectTree kernel m frames loc n₃ n₂ k) (hk : k < 512 * n₂)
    (hlt : k < 2 ^ 31) :
    DirectTree kernel (setEntry m (loc (.pd (k / 512))) (k % 512) (k * 2 ^ 21 ||| 0x83))
      frames loc n₃ n₂ (k + 1) := by
  have hT : DirectTable.Used n₃ n₂ (.pd (k / 512)) := by
    show k / 512 < n₂
    omega
  have hplace : 512 * (k / 512) + k % 512 = k := div_add_mod k 512
  refine ⟨h.nodup, h.supply, h.frame, h.apart, h.unused, fun U hU j hj => ?_⟩
  by_cases hat : U = .pd (k / 512) ∧ j = k % 512
  · obtain ⟨rfl, rfl⟩ := hat
    have hword : k * 2 ^ 21 ||| 0x83 < 2 ^ 64 := or_lt_two_pow (by omega) (by norm_num)
    rw [entry_setEntry_self hword]
    simp only [directWord]
    rw [hplace, if_pos (lt_succ_self k)]
  · have hat' : ¬ (loc U = loc (.pd (k / 512)) ∧ j = k % 512) :=
      fun he => hat ⟨h.apart U _ hU hT he.1, he.2⟩
    rw [entry_setEntry_of_ne (h.frame _ hT).aligned (h.frame U hU).aligned
      (mod_lt _ (by norm_num)) hj hat', h.word U hU j hj]
    cases U with
    | pml4 => rfl
    | pdpt a => rfl
    | pd c =>
      have hj' : 512 * c + j ≠ k := by
        intro he
        apply hat
        constructor
        · rw [show k / 512 = c by omega]
        · omega
      by_cases hlow : 512 * c + j < k
      · simp only [directWord, if_pos hlow, if_pos (show 512 * c + j < k + 1 by omega)]
      · simp only [directWord, if_neg hlow, if_neg (show ¬ 512 * c + j < k + 1 by omega)]

/-! ## A round of the loop -/

/-- The page directory pointer tables that `k` pages need. -/
def pdptsFor (k : Nat) : Nat := (k + (2 ^ 18 - 1)) / 2 ^ 18

/-- The page directories that `k` pages need. -/
def pdsFor (k : Nat) : Nat := (k + 511) / 512

lemma DirectTree.link_pdpt (h : DirectTree kernel m frames loc n₃ n₂ k) {a : Nat} (ha : a < n₃)
    (ha' : a < 255) :
    directEnsure m frames (loc .pml4) (256 + a) = some (m, frames, loc (.pdpt a)) := by
  have he := h.word .pml4 trivial (256 + a) (by omega)
  simp only [directWord] at he
  rw [if_neg (by omega), if_pos (by omega), Nat.add_sub_cancel_left] at he
  exact directEnsure_of_link (h.frame (.pdpt a) ha) he

lemma DirectTree.link_pd (h : DirectTree kernel m frames loc n₃ n₂ k) {c : Nat} (hc : c < n₂)
    (hc' : c / 512 < n₃) :
    directEnsure m frames (loc (.pdpt (c / 512))) (c % 512) = some (m, frames, loc (.pd c)) := by
  have he := h.word (.pdpt (c / 512)) hc' (c % 512) (mod_lt _ (by norm_num))
  simp only [directWord] at he
  rw [div_add_mod c 512, if_pos hc] at he
  exact directEnsure_of_link (h.frame (.pd c) hc) he

/-- The tables after a step, with the PML4 and the frames that are left. -/
def Grown (kernel root n₃ n₂ k : Nat) (left : List Nat) (r : Mem × List Nat)
    (ok : (DirectTable → Nat) → Prop) : Prop :=
  r.2 = left ∧ ∃ loc, DirectTree kernel r.1 r.2 loc n₃ n₂ k ∧ loc .pml4 = root ∧ ok loc

/-- Page `k` finds its page directory pointer table or makes it. -/
lemma DirectTree.ensure_pdpt (h : DirectTree kernel m frames loc (pdptsFor k) (pdsFor k) k)
    (hk : k < 255 * 2 ^ 18) (hn : pdptsFor (k + 1) = pdptsFor k + n) (hsupply : n ≤ frames.length) :
    Takes frames n (directEnsure m frames (loc .pml4) (256 + k / 2 ^ 18)) fun r =>
      Grown kernel (loc .pml4) (pdptsFor (k + 1)) (pdsFor k) k (frames.drop n) (r.1, r.2.1)
        fun loc' => r.2.2 = loc' (.pdpt (k / 2 ^ 18)) := by
  simp only [pdptsFor, pdsFor] at h hn ⊢
  have hnext : (k + 1 + (2 ^ 18 - 1)) / 2 ^ 18 = k / 2 ^ 18 + 1 := by omega
  rw [hnext] at hn ⊢
  by_cases hnew : k % 2 ^ 18 = 0
  · have hcount : (k + (2 ^ 18 - 1)) / 2 ^ 18 = k / 2 ^ 18 := by omega
    rw [hcount] at h hn
    obtain rfl : n = 1 := by omega
    cases frames with
    | nil => exact absurd hsupply (by simp)
    | cons f frames =>
      have he := h.word .pml4 trivial (256 + k / 2 ^ 18) (by omega)
      simp only [directWord] at he
      rw [if_neg (by omega), if_neg (by omega)] at he
      refine directEnsure_of_empty (h.supply f mem_cons_self) he fun hin =>
        ⟨rfl, update loc (.pdpt (k / 2 ^ 18)) f, h.add_pdpt hin (by omega) (by omega), ?_, ?_⟩
      · exact update_of_ne (show DirectTable.pml4 ≠ .pdpt _ by simp) f loc
      · exact (update_self _ f loc).symm
  · have hcount : (k + (2 ^ 18 - 1)) / 2 ^ 18 = k / 2 ^ 18 + 1 := by omega
    rw [hcount] at h hn
    obtain rfl : n = 0 := by omega
    rw [h.link_pdpt (lt_succ_self _) (by omega)]
    exact takes_zero ⟨rfl, loc, h, rfl, rfl⟩

lemma DirectTree.ensure_pd (h : DirectTree kernel m frames loc (pdptsFor (k + 1)) (pdsFor k) k)
    (hn : pdsFor (k + 1) = pdsFor k + n) (hsupply : n ≤ frames.length) :
    Takes frames n (directEnsure m frames (loc (.pdpt (k / 2 ^ 18))) (k / 512 % 512)) fun r =>
      Grown kernel (loc .pml4) (pdptsFor (k + 1)) (pdsFor (k + 1)) k (frames.drop n) (r.1, r.2.1)
        fun loc' => r.2.2 = loc' (.pd (k / 512)) := by
  simp only [pdptsFor, pdsFor] at h hn ⊢
  have hnext : (k + 1 + 511) / 512 = k / 512 + 1 := by omega
  have hpdpt : k / 2 ^ 18 = k / 512 / 512 := by omega
  rw [hnext] at hn ⊢
  rw [hpdpt]
  by_cases hnew : k % 512 = 0
  · have hcount : (k + 511) / 512 = k / 512 := by omega
    rw [hcount] at h hn
    obtain rfl : n = 1 := by omega
    cases frames with
    | nil => exact absurd hsupply (by simp)
    | cons f frames =>
      have hT : DirectTable.Used ((k + 1 + (2 ^ 18 - 1)) / 2 ^ 18) (k / 512)
          (.pdpt (k / 512 / 512)) := by
        show k / 512 / 512 < (k + 1 + (2 ^ 18 - 1)) / 2 ^ 18
        omega
      have he := h.word _ hT (k / 512 % 512) (mod_lt _ (by norm_num))
      simp only [directWord] at he
      rw [div_add_mod, if_neg (lt_irrefl _)] at he
      refine directEnsure_of_empty (h.supply f mem_cons_self) he fun hin =>
        ⟨rfl, update loc (.pd (k / 512)) f, h.add_pd hin (by omega) (by omega), ?_, ?_⟩
      · exact update_of_ne (show DirectTable.pml4 ≠ .pd _ by simp) f loc
      · exact (update_self _ f loc).symm
  · have hcount : (k + 511) / 512 = k / 512 + 1 := by omega
    rw [hcount] at h hn
    obtain rfl : n = 0 := by omega
    rw [h.link_pd (lt_succ_self _) (by omega)]
    exact takes_zero ⟨rfl, loc, h, rfl, rfl⟩

lemma directIndex (hk : k < 255 * 2 ^ 18) : let vaddr := (k * 2 ^ 21 + directOffset) % 2 ^ 64
    pml4Index vaddr = 256 + k / 2 ^ 18 ∧ pdptIndex vaddr = k / 512 % 512 ∧
      pdIndex vaddr = k % 512 := by
  intro vaddr
  have hv : vaddr = k * 2 ^ 21 + 0xFFFF800000000000 := mod_eq_of_lt (by
    simp only [directOffset]
    omega)
  rw [pml4Index_eq, pdptIndex_eq, pdIndex_eq]
  omega

/-- The tables that `k` pages need, apart from the PML4. -/
def tablesFor (k : Nat) : Nat := pdptsFor k + pdsFor k

lemma tablesFor_mono {j : Nat} (hjk : j ≤ k) : pdptsFor j ≤ pdptsFor k ∧ pdsFor j ≤ pdsFor k :=
  ⟨Nat.div_le_div_right (by omega), Nat.div_le_div_right (by omega)⟩

lemma DirectTree.round (h : DirectTree kernel m frames loc (pdptsFor k) (pdsFor k) k)
    (hk : k < 255 * 2 ^ 18) (hn : tablesFor (k + 1) = tablesFor k + n)
    (hsupply : n ≤ frames.length) :
    Takes frames n (directMapPage m frames (loc .pml4) (k * 2 ^ 21)) fun r =>
      Grown kernel (loc .pml4) (pdptsFor (k + 1)) (pdsFor (k + 1)) (k + 1) (frames.drop n) r
        fun _ => True := by
  obtain ⟨hpdpts, hpds⟩ := tablesFor_mono (le_add_right k 1)
  obtain ⟨n₃, hn₃⟩ := exists_add_of_le hpdpts
  obtain ⟨n₂, hn₂⟩ := exists_add_of_le hpds
  obtain rfl : n = n₃ + n₂ := by simp only [tablesFor] at hn; omega
  obtain ⟨hi4, hi3, hi2⟩ := directIndex hk
  have hroom : k < 512 * pdsFor (k + 1) := by
    simp only [pdsFor]
    omega
  simp only [directMapPage, hi4, hi3, hi2]
  refine (h.ensure_pdpt hk hn₃ (by omega)).bind fun r₄ hr₄ => ?_
  obtain ⟨hleft₄, loc₄, h₄, hroot₄, hr₄⟩ := hr₄
  rw [hr₄, ← hleft₄]
  refine (h₄.ensure_pd hn₂ (by rw [hleft₄, length_drop]; omega)).map fun r₃ hr₃ => ?_
  obtain ⟨hleft₃, loc₃, h₃, hroot₃, hr₃⟩ := hr₃
  refine ⟨?_, loc₃, ?_, hroot₃.trans hroot₄, trivial⟩
  · rw [← drop_drop, ← hleft₄]
    exact hleft₃
  · rw [hr₃]
    exact h₃.add_page hroom (by omega)

/-- The rounds from page `k` on, for a bound that need not be aligned. -/
lemma DirectTree.loop {maxAddr : Nat} (hmax : maxAddr ≤ 255 * 2 ^ 39) (d : Nat) :
    ∀ k m frames loc n, k + d = (maxAddr + (2 ^ 21 - 1)) / 2 ^ 21 →
      DirectTree kernel m frames loc (pdptsFor k) (pdsFor k) k →
      tablesFor (k + d) = tablesFor k + n → n ≤ frames.length →
      Takes frames n (directLoop maxAddr (loc .pml4) (d + 1) (k * 2 ^ 21) m frames) fun r =>
        Grown kernel (loc .pml4) (pdptsFor (k + d)) (pdsFor (k + d)) (k + d) (frames.drop n) r
          fun _ => True := by
  induction d with
  | zero =>
    intro k m frames loc n hk h hn _
    obtain rfl : n = 0 := by
      rw [add_zero] at hn
      omega
    rw [directLoop, if_neg (by omega)]
    exact takes_zero ⟨rfl, loc, h, rfl, trivial⟩
  | succ d ih =>
    intro k m frames loc n hk h hn hsupply
    obtain ⟨hpdpts, hpds⟩ := tablesFor_mono (le_add_right k 1)
    obtain ⟨hpdpts', hpds'⟩ := tablesFor_mono (k := k + (d + 1)) (j := k + 1) (by omega)
    obtain ⟨n₁, hn₁⟩ := exists_add_of_le (Nat.add_le_add hpdpts hpds)
    obtain ⟨n₂, hn₂⟩ := exists_add_of_le (Nat.add_le_add hpdpts' hpds')
    simp only [tablesFor] at hn
    obtain rfl : n = n₁ + n₂ := by omega
    have hnext : (k * 2 ^ 21 + pageSize2MB) % 2 ^ 64 = (k + 1) * 2 ^ 21 := by
      simp only [pageSize2MB]
      omega
    have hrest : k + (d + 1) = k + 1 + d := by omega
    rw [hrest] at hn₂ ⊢
    rw [directLoop, if_pos (by omega), hnext]
    refine (h.round (by omega) hn₁ (by omega)).bind fun r hr => ?_
    obtain ⟨hleft, loc', h', hroot, -⟩ := hr
    rw [← hroot, ← drop_drop, ← hleft]
    refine ih (k + 1) r.1 r.2 loc' n₂ (by omega) h' hn₂ ?_
    rw [hleft, length_drop]
    omega

/-- More fuel than there are rounds changes nothing. -/
lemma directLoop_fuel {maxAddr fuel : Nat} (pml4 : Nat) (hmax : maxAddr ≤ 255 * 2 ^ 39) (d : Nat) :
    ∀ k m frames, k + d = (maxAddr + (2 ^ 21 - 1)) / 2 ^ 21 → d < fuel →
      directLoop maxAddr pml4 fuel (k * 2 ^ 21) m frames =
        directLoop maxAddr pml4 (d + 1) (k * 2 ^ 21) m frames := by
  induction d generalizing fuel with
  | zero =>
    intro k m frames hk hfuel
    obtain ⟨fuel, rfl⟩ := exists_eq_add_one.mpr hfuel
    rw [directLoop, directLoop, if_neg (by omega), if_neg (by omega)]
  | succ d ih =>
    intro k m frames hk hfuel
    obtain ⟨fuel, rfl⟩ := exists_eq_add_one.mpr (zero_lt_of_lt hfuel)
    have hnext : (k * 2 ^ 21 + pageSize2MB) % 2 ^ 64 = (k + 1) * 2 ^ 21 := by
      simp only [pageSize2MB]
      omega
    rw [directLoop, directLoop, hnext]
    simp only [ih (k + 1) _ _ (by omega) (show d < fuel by omega)]

/-! ## What the processor finds -/

lemma page_target {q : Nat} (hq : q < 2 ^ 31) :
    pteTarget (q * 2 ^ 21 ||| 0x83) / 2 ^ 21 * 2 ^ 21 = q * 2 ^ 21 := by
  rw [or_flags (dvd_mul_left (2 ^ 21) q) (by norm_num), pteTarget]
  omega

lemma page_testBit (q : Nat) {i : Nat} (hi : i < 12) :
    (q * 2 ^ 21 ||| 0x83).testBit i = (0x83 : Nat).testBit i :=
  testBit_or_flags (dvd_mul_left (2 ^ 21) q) (hi.trans (by norm_num))

/-- The walk outside the entry of the kernel: page `q` of the upper half is mapped to
page `q` of physical memory as long as the loop has come to it. -/
lemma DirectTree.walk (h : DirectTree kernel m frames loc (pdptsFor k) (pdsFor k) k)
    (hk : k ≤ 255 * 2 ^ 18) {v : Nat} (hv : pml4Index v ≠ 511) : Paging.walk m (loc .pml4) v =
      if 2 ^ 26 ≤ v / 2 ^ 21 % 2 ^ 27 ∧ v / 2 ^ 21 % 2 ^ 27 - 2 ^ 26 < k then
        some ⟨(v / 2 ^ 21 % 2 ^ 27 - 2 ^ 26) * 2 ^ 21 + v % 2 ^ 21, true, false⟩
      else none := by
  have hpdpts : pdptsFor k = (k + (2 ^ 18 - 1)) / 2 ^ 18 := rfl
  have hpds : pdsFor k = (k + 511) / 512 := rfl
  obtain ⟨a, ha⟩ : ∃ a, v / 2 ^ 39 % 512 = a := ⟨_, rfl⟩
  obtain ⟨b, hb⟩ : ∃ b, v / 2 ^ 30 % 512 = b := ⟨_, rfl⟩
  obtain ⟨c, hc⟩ : ∃ c, v / 2 ^ 21 % 512 = c := ⟨_, rfl⟩
  have hpage : v / 2 ^ 21 % 2 ^ 27 = 2 ^ 18 * a + 512 * b + c := by omega
  have ha' : a < 512 ∧ a ≠ 511 := ⟨by omega, by rwa [← ha, ← pml4Index_eq]⟩
  have hb' : b < 512 := by omega
  have hc' : c < 512 := by omega
  have hi4 : v / 2 ^ (12 + 9 * 3) % 512 = a := ha
  have hi3 : v / 2 ^ (12 + 9 * 2) % 512 = b := hb
  have hi2 : v / 2 ^ (12 + 9 * 1) % 512 = c := hc
  rw [hpage, Paging.walk]
  have he4 := h.word .pml4 trivial a ha'.1
  simp only [directWord] at he4
  rw [if_neg ha'.2] at he4
  by_cases h4 : 256 ≤ a ∧ a - 256 < pdptsFor k
  · rw [if_pos h4] at he4
    rw [walkFrom_of_link three_ne_zero (h.frame (.pdpt (a - 256)) h4.2).toFrame (by rw [hi4, he4])]
    have he3 := h.word (.pdpt (a - 256)) h4.2 b hb'
    simp only [directWord] at he3
    by_cases h3 : 512 * (a - 256) + b < pdsFor k
    · rw [if_pos h3] at he3
      rw [walkFrom_of_link two_ne_zero (h.frame (.pd (512 * (a - 256) + b)) h3).toFrame
        (by rw [hi3, he3])]
      have he2 := h.word (.pd (512 * (a - 256) + b)) h3 c hc'
      simp only [directWord] at he2
      by_cases h2 : 512 * (512 * (a - 256) + b) + c < k
      · rw [if_pos h2] at he2
        rw [walkFrom_of_huge ((congrArg (entry m _) hc).trans he2) (page_testBit _ (by norm_num))
            (page_testBit _ (by norm_num)),
          page_target (by omega), page_testBit _ (by norm_num), if_pos (by omega)]
        have hq : 2 ^ 18 * a + 512 * b + c - 2 ^ 26 = 512 * (512 * (a - 256) + b) + c := by omega
        simp only [hq, show testBit 0x83 1 = true by decide, Bool.and_false, Bool.false_and,
          Bool.true_and]
      · rw [if_neg h2] at he2
        rw [walkFrom_of_empty (by rw [hi2, he2]), if_neg (by omega)]
    · rw [if_neg h3] at he3
      rw [walkFrom_of_empty (by rw [hi3, he3]), if_neg (by omega)]
  · rw [if_neg h4] at he4
    rw [walkFrom_of_empty (by rw [hi4, he4]), if_neg (by omega)]

/-! ## The whole map -/

/-- The pages of the direct map of `maxAddr` bytes. -/
def directPages (maxAddr : Nat) : Nat := (maxAddr + (2 ^ 21 - 1)) / 2 ^ 21

/-- The tables that it needs. -/
def directTables (maxAddr : Nat) : Nat := 1 + tablesFor (directPages maxAddr)

/-- `pmm_alloc_page` returns frames that are neither in use nor returned twice, and does
not run out. -/
structure DirectSupply (frames : List Nat) (cr3 maxAddr : Nat) : Prop where
  nodup : frames.Nodup
  frame : ∀ f ∈ frames, Frame f
  unused : cr3 ∉ frames
  enough : directTables maxAddr ≤ frames.length

/-- `vmm_init_direct_mapping` returns, the processor then finds every byte of physical memory at
`DIRECT_OFFSET`, for the kernel only and writable, the entry of the kernel image is the old one, and
no other canonical address is mapped. -/
def DirectMapComplete (m : Mem) (frames : List Nat) (cr3 maxAddr : Nat) : Prop :=
  ∃ m' frames' pml4, (∀ fuel, directPages maxAddr < fuel →
      vmmInitDirectMapping fuel m frames cr3 maxAddr = some (m', frames', pml4)) ∧
    (∀ p < maxAddr, walk m' pml4 (directOffset + p) = some ⟨p, true, false⟩) ∧
    entry m' pml4 511 = entry m cr3 511 ∧
    ∀ v, v < 2 ^ 47 ∨ (2 ^ 64 - 2 ^ 47 ≤ v ∧ v < 2 ^ 64) →
      ¬ (directOffset ≤ v ∧ v < directOffset + directPages maxAddr * 2 ^ 21) →
      pml4Index v ≠ 511 → walk m' pml4 v = none

/-- The new PML4, before the loop. -/
lemma DirectTree.start {cr3 : Nat} (hcr3 : Frame cr3) (hwindow : f < windowSize)
    (hnodup : (f :: frames).Nodup)
    (hframe : ∀ g ∈ f :: frames, Frame g) (hunused : cr3 ∉ f :: frames) :
    DirectTree (entry m cr3 511)
      (setEntry (clearTable m f) f 511 (entry (clearTable m f) cr3 511)) frames (fun _ => f)
      (pdptsFor 0) (pdsFor 0) 0 := by
  have hf := hframe f mem_cons_self
  have hold : entry (clearTable m f) cr3 511 = entry m cr3 511 := by
    apply entry_clearTable_of_ne hf.aligned hcr3.aligned (by norm_num)
    rintro rfl
    exact hunused mem_cons_self
  have hnone : ∀ U : DirectTable, U.Used (pdptsFor 0) (pdsFor 0) → U = .pml4 := by
    intro U hU
    cases U with
    | pml4 => rfl
    | pdpt a => exact absurd hU (not_lt_zero a)
    | pd c => exact absurd hU (not_lt_zero c)
  refine ⟨(nodup_cons.mp hnodup).2, fun g hg => hframe g (mem_cons_of_mem f hg),
    fun _ _ => ⟨hf, hwindow⟩, fun U V hU hV _ => (hnone U hU).trans (hnone V hV).symm,
    fun _ _ => (nodup_cons.mp hnodup).1, fun U hU i hi => ?_⟩
  obtain rfl := hnone U hU
  rw [hold]
  by_cases hi' : i = 511
  · subst hi'
    exact entry_setEntry_self (entry_lt m cr3 511)
  · rw [entry_setEntry_of_ne hf.aligned hf.aligned (by norm_num) hi fun he => hi' he.2,
      entry_clearTable_self hi]
    simp only [directWord]
    rw [if_neg hi', if_neg]
    rintro ⟨-, hlt⟩
    exact not_lt_zero _ hlt

/-- What the processor finds in the tables of all pages. -/
lemma DirectTree.complete {maxAddr : Nat} (hmax : maxAddr ≤ 255 * 2 ^ 39)
    (h : DirectTree kernel m frames loc (pdptsFor (directPages maxAddr))
      (pdsFor (directPages maxAddr)) (directPages maxAddr)) :
    (∀ p < maxAddr, Paging.walk m (loc .pml4) (directOffset + p) = some ⟨p, true, false⟩) ∧
      entry m (loc .pml4) 511 = kernel ∧
      ∀ v, v < 2 ^ 47 ∨ (2 ^ 64 - 2 ^ 47 ≤ v ∧ v < 2 ^ 64) →
        ¬ (directOffset ≤ v ∧ v < directOffset + directPages maxAddr * 2 ^ 21) →
        pml4Index v ≠ 511 → Paging.walk m (loc .pml4) v = none := by
  have hpages : directPages maxAddr = (maxAddr + (2 ^ 21 - 1)) / 2 ^ 21 := rfl
  refine ⟨fun p hp => ?_, ?_, fun v hcan hout hv => ?_⟩
  · have hindex : pml4Index (directOffset + p) ≠ 511 := by
      rw [pml4Index_eq]
      simp only [directOffset]
      omega
    have hpage : (directOffset + p) / 2 ^ 21 % 2 ^ 27 = 2 ^ 26 + p / 2 ^ 21 := by
      simp only [directOffset]
      omega
    have hoffset : (directOffset + p) % 2 ^ 21 = p % 2 ^ 21 := by
      simp only [directOffset]
      omega
    rw [h.walk (by omega) hindex, hpage, hoffset, if_pos (by omega), Nat.add_sub_cancel_left,
      div_add_mod']
  · exact h.word .pml4 trivial 511 (by norm_num)
  · rw [h.walk (by omega) hv, if_neg]
    simp only [directOffset] at hout
    omega

lemma vmmInitDirectMapping_cons {fuel cr3 maxAddr : Nat} (hcr3 : InWindow cr3) :
    vmmInitDirectMapping fuel m (f :: frames) cr3 maxAddr = (kernelReach f).bind fun pml4 =>
      (directLoop maxAddr pml4 fuel 0 (setEntry (clearTable m pml4) pml4 511
        (entry (clearTable m pml4) cr3 511)) frames).map fun s => (s.1, s.2, f) := by
  rw [vmmInitDirectMapping, kernelReach_eq hcr3.below]
  rfl

lemma vmmInitDirectMapping_fuel {fuel cr3 maxAddr : Nat} (hmax : maxAddr ≤ 255 * 2 ^ 39)
    (hlt : directPages maxAddr < fuel) : vmmInitDirectMapping fuel m frames cr3 maxAddr =
      vmmInitDirectMapping (directPages maxAddr + 1) m frames cr3 maxAddr := by
  have hloop : ∀ pml4 m frames, directLoop maxAddr pml4 fuel 0 m frames =
      directLoop maxAddr pml4 (directPages maxAddr + 1) 0 m frames := by
    intro pml4 m frames
    have hrounds := directLoop_fuel pml4 hmax (directPages maxAddr) 0 m frames
      (zero_add _) hlt
    rwa [zero_mul] at hrounds
  generalize directPages maxAddr + 1 = rounds at hloop
  simp only [vmmInitDirectMapping, hloop]

section

variable {cr3 maxAddr : Nat} (hmax : maxAddr ≤ 255 * 2 ^ 39) (hcr3 : InWindow cr3)
  (hsupply : DirectSupply frames cr3 maxAddr)
include hmax hcr3 hsupply

/-- The tables after the whole call. -/
lemma init_takes :
    Takes frames (directTables maxAddr)
      (vmmInitDirectMapping (directPages maxAddr + 1) m frames cr3 maxAddr) fun r =>
        ∃ loc, DirectTree (entry m cr3 511) r.1 r.2.1 loc (pdptsFor (directPages maxAddr))
          (pdsFor (directPages maxAddr)) (directPages maxAddr) ∧ loc .pml4 = r.2.2 := by
  have henough := hsupply.enough
  rw [directTables] at henough ⊢
  cases frames with
  | nil => exact absurd henough (by rw [length_nil]; omega)
  | cons f frames =>
    rw [vmmInitDirectMapping_cons hcr3]
    have hroot : Takes (f :: frames) 1 (kernelReach f) fun t => t = f ∧ f < windowSize :=
      takes_one (fun hin => ⟨f, kernelReach_eq hin, rfl, hin⟩) id
    refine hroot.bind fun t ht => ?_
    obtain ⟨rfl, hin⟩ := ht
    have hstart := DirectTree.start (m := m) hcr3.toFrame hin hsupply.nodup hsupply.frame
      hsupply.unused
    have hloop := DirectTree.loop hmax (directPages maxAddr) 0 _ frames _
      (tablesFor (directPages maxAddr)) (zero_add _) hstart
      (by rw [zero_add, show tablesFor 0 = 0 from rfl, zero_add])
      (by rw [length_cons] at henough; omega)
    rw [zero_add, zero_mul] at hloop
    refine hloop.map fun r hr => ?_
    obtain ⟨-, loc, htree, hroot, -⟩ := hr
    exact ⟨loc, htree, hroot⟩

lemma directMap_complete (hin : outside frames (directTables maxAddr) = none) :
    DirectMapComplete m frames cr3 maxAddr := by
  obtain ⟨⟨m', frames', pml4⟩, hcall, loc, htree, hroot⟩ :=
    (init_takes (m := m) hmax hcr3 hsupply).returns hin
  obtain rfl : loc .pml4 = pml4 := hroot
  exact ⟨m', frames', _, fun fuel hlt => (vmmInitDirectMapping_fuel hmax hlt).trans hcall,
    htree.complete hmax⟩

lemma directMap_faults (hout : outside frames (directTables maxAddr) = some f)
    (hreach : kernelReach f = none) {fuel : Nat} (hlt : directPages maxAddr < fuel) :
    vmmInitDirectMapping fuel m frames cr3 maxAddr = none := by
  rw [vmmInitDirectMapping_fuel hmax hlt, (init_takes hmax hcr3 hsupply).faults hout hreach]

lemma not_directMapComplete (hout : outside frames (directTables maxAddr) = some f)
    (hreach : kernelReach f = none) : ¬ DirectMapComplete m frames cr3 maxAddr := by
  rintro ⟨m', frames', pml4, hcall, -⟩
  have hnone := directMap_faults (m := m) hmax hcr3 hsupply hout hreach (lt_add_one _)
  rw [hcall _ (lt_add_one _)] at hnone
  cases hnone

end

lemma smallFrames (f : Nat) (hf : f ∈ [0x1000, 0x2000, 0x3000, 0x4000, 0x5000, 0x8000000]) :
    Frame f := by
  have hsmall : ∀ g ∈ [0x1000, 0x2000, 0x3000, 0x4000, 0x5000, 0x8000000],
      2 ^ 12 ∣ g ∧ g < 2 ^ 52 := by decide
  exact ⟨(hsmall f hf).1, (hsmall f hf).2⟩

end DestinX.Paging
