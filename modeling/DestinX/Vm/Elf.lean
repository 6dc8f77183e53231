import DestinX.Paging.Refinement
import DestinX.Vm.Regions

/-!
# Loading a program

`load_elf` of `arch/x86_64/elf/elf.c`. The file lies in memory that the loader only reads. A
call of `vmm_map_page` has the effect that `Paging.PageOp.apply` gives it. Each call of
`pmm_alloc_pages` gets its answer from outside.

The number of pages of a segment is computed from its size alone, and its pages are mapped
whether or not another segment has a page of them. A write to a page that is not mapped does not
return, and neither does a loop whose `int` overflows.
-/

namespace DestinX.Vm

open Base Fs Paging Function Option Nat

/-- The fields of `Elf64_Phdr` that the loader reads. -/
structure ElfPhdr where
  (type offset vaddr filesz memsz : Nat)
  deriving DecidableEq, Repr

def ptLoad : Nat := 1

def elfMagic (file : Mem) : Bool :=
  file 0 == 0x7f && file 1 == 0x45 && file 2 == 0x4c && file 3 == 0x46 && file 4 == 2

def elfEntry (file : Mem) : Nat := load64 file 24

def elfPhnum (file : Mem) : Nat := load file 56 2

/-- `phdr[i]` -/
def elfPhdr (file : Mem) (i : Nat) : ElfPhdr :=
  let a := load64 file 32 + 56 * i
  ⟨load32 file a, load64 file (a + 8), load64 file (a + 16), load64 file (a + 32),
    load64 file (a + 40)⟩

/-- The address space of the new process and the physical memory. -/
structure UserImage where
  pages : PageMap
  mem : Mem

/-- The byte that a program finds at an address. -/
def UserImage.read (s : UserImage) (vaddr : Nat) : Option UInt8 :=
  (s.pages (pageNumber vaddr)).map fun page => s.mem (translation vaddr page).phys

def UserImage.write (s : UserImage) (vaddr : Nat) (b : UInt8) : Option UserImage :=
  (s.pages (pageNumber vaddr)).map fun page =>
    { s with mem := update s.mem (translation vaddr page).phys b }

/-- `memcpy` and `memset`: byte `k` of the source goes to `dst + k`. -/
def UserImage.copy (s : UserImage) (dst : Nat) (src : Nat → UInt8) : Nat → Option UserImage
  | 0 => some s
  | n + 1 => (s.copy dst src n).bind fun s' => s'.write (dst + n) (src n)

def loadFlags : Nat := pteWritable ||| pteUser

/-- The loop over the pages of a segment. -/
def UserImage.mapPages (s : UserImage) (paddr vaddr : Nat) : Nat → UserImage
  | 0 => s
  | n + 1 =>
    let s' := s.mapPages paddr vaddr n
    { s' with
      pages := (PageOp.map (paddr + n * 4096) (vaddr + n * 4096) loadFlags []).apply s'.pages }

def ElfPhdr.pagesNeeded (ph : ElfPhdr) : Nat := sub64 (add64 ph.memsz 4096) 1 / 4096

/-- The calls of `memcpy` and `memset` for a segment. -/
def UserImage.fill (s : UserImage) (file : Mem) (ph : ElfPhdr) : Option UserImage :=
  (s.copy ph.vaddr (fun k => file (ph.offset + k)) ph.filesz).bind fun s' =>
    s'.copy (ph.vaddr + ph.filesz) (fun _ => 0) (ph.memsz - ph.filesz)

/-- The body of the loop of `load_elf`, with the answer of `pmm_alloc_pages` and the value of
`maxEnd`. From page 2¹⁹ on `j * PAGE_SIZE_4KB` overflows. -/
def loadSegment (file : Mem) (ph : ElfPhdr) (paddr : Nat) (s : UserImage) (maxEnd : Nat) :
    Option (UserImage × Nat) :=
  if ph.type ≠ ptLoad then some (s, maxEnd)
  else if 2 ^ 19 < ph.pagesNeeded then none
  else
    ((s.mapPages paddr ph.vaddr ph.pagesNeeded).fill file ph).map fun s' =>
      (s', if maxEnd < add64 ph.vaddr ph.memsz then add64 ph.vaddr ph.memsz else maxEnd)

/-- The first `n` rounds of the loop. -/
def loadSegments (file : Mem) (alloc : Nat → Nat) (s : UserImage) : Nat → Option (UserImage × Nat)
  | 0 => some (s, 0)
  | n + 1 => (loadSegments file alloc s n).bind fun r =>
    loadSegment file (elfPhdr file n) (alloc n) r.1 r.2

/-- `load_elf`: the memory, the result and the value of `*end`. -/
def loadElf (file : Mem) (alloc : Nat → Nat) (s : UserImage) (endPtr : Nat) :
    Option (UserImage × Nat × Nat) :=
  if elfMagic file then
    (loadSegments file alloc s (elfPhnum file)).map fun r => (r.1, elfEntry file, r.2)
  else some (s, 0, endPtr)

/-! ## What the headers describe -/

/-- The program header is one of the file's and is to be loaded. -/
def LoadsSegment (file : Mem) (i : Nat) : Prop := i < elfPhnum file ∧ (elfPhdr file i).type = ptLoad

def ElfPhdr.Holds (ph : ElfPhdr) (a : Nat) : Prop := ph.vaddr ≤ a ∧ a < ph.vaddr + ph.memsz

/-- The byte that the segment has at an address. -/
def ElfPhdr.byte (file : Mem) (ph : ElfPhdr) (a : Nat) : UInt8 :=
  if a < ph.vaddr + ph.filesz then file (ph.offset + (a - ph.vaddr)) else 0

structure WellFormedElf (file : Mem) (size : Nat) : Prop where
  magic : elfMagic file = true
  headers : load64 file 32 + 56 * elfPhnum file ≤ size
  inFile : ∀ i, LoadsSegment file i → (elfPhdr file i).offset + (elfPhdr file i).filesz ≤ size
  sizes : ∀ i, LoadsSegment file i → (elfPhdr file i).filesz ≤ (elfPhdr file i).memsz
  user : ∀ i, LoadsSegment file i → (elfPhdr file i).vaddr + (elfPhdr file i).memsz ≤ userEnd
  apart : ∀ i j, i < j → LoadsSegment file i → LoadsSegment file j →
    ∀ a, (elfPhdr file i).Holds a → ¬ (elfPhdr file j).Holds a

/-- The answers of `pmm_alloc_pages`: whole pages, each handed out once. -/
structure PagesAvailable (file : Mem) (alloc : Nat → Nat) : Prop where
  aligned : ∀ i, LoadsSegment file i → 4096 ∣ alloc i
  apart : ∀ i j, i < j → LoadsSegment file i → LoadsSegment file j →
    Apart (alloc i) (4096 * (elfPhdr file i).pagesNeeded) (alloc j)
      (4096 * (elfPhdr file j).pagesNeeded)

/-- The address space holds what the program headers describe, open to user mode. -/
structure ImageOf (file : Mem) (s : UserImage) : Prop where
  user : ∀ i, LoadsSegment file i → ∀ a, (elfPhdr file i).Holds a →
    ∃ page, s.pages (pageNumber a) = some page ∧ page.2.testBit 2 = true
  bytes : ∀ i, LoadsSegment file i → ∀ k < (elfPhdr file i).filesz,
    s.read ((elfPhdr file i).vaddr + k) = some (file ((elfPhdr file i).offset + k))
  zeros : ∀ i, LoadsSegment file i → ∀ k, (elfPhdr file i).filesz ≤ k → k < (elfPhdr file i).memsz →
    s.read ((elfPhdr file i).vaddr + k) = some 0

/-- The largest end of a segment, or 0 when there is none. -/
structure LargestEnd (file : Mem) (n maxEnd : Nat) : Prop where
  bound : ∀ i < n, LoadsSegment file i → (elfPhdr file i).vaddr + (elfPhdr file i).memsz ≤ maxEnd
  reached : maxEnd = 0 ∨
    ∃ i < n, LoadsSegment file i ∧ maxEnd = (elfPhdr file i).vaddr + (elfPhdr file i).memsz

/-- The loader maps the page for the segment. -/
def ElfPhdr.Maps (ph : ElfPhdr) (P : Nat) : Prop :=
  pageNumber ph.vaddr ≤ P ∧ P < pageNumber ph.vaddr + ph.pagesNeeded

instance (ph : ElfPhdr) (P : Nat) : Decidable (ph.Maps P) := inferInstanceAs (Decidable (_ ∧ _))

instance (ph : ElfPhdr) (a : Nat) : Decidable (ph.Holds a) := inferInstanceAs (Decidable (_ ∧ _))

/-- The segment is not longer than 2 GiB, and each page that it touches is mapped for it or for a
segment before it. -/
def PagesPresent (file : Mem) (i : Nat) : Prop :=
  (elfPhdr file i).pagesNeeded ≤ 2 ^ 19 ∧ ∀ a, (elfPhdr file i).Holds a →
    ∃ k ≤ i, LoadsSegment file k ∧ (elfPhdr file k).Maps (pageNumber a)

/-- The page of the address is mapped again for a segment from `i + 1` to `n - 1`. -/
def MappedAgain (file : Mem) (i n a : Nat) : Prop :=
  ∃ k, i < k ∧ k < n ∧ LoadsSegment file k ∧ (elfPhdr file k).Maps (pageNumber a)

/-- The pages that a segment touches are there, and none is mapped again for one behind it. -/
def PagesKept (file : Mem) : Prop :=
  ∀ i, LoadsSegment file i → PagesPresent file i ∧
    ∀ a, (elfPhdr file i).Holds a → ¬ MappedAgain file i (elfPhnum file) a

variable {file m : Mem} {alloc : Nat → Nat} {s s' : UserImage} {ph : ElfPhdr} {src : Nat → UInt8}
  {r : UserImage × Nat} {a b i n x P dst paddr size maxEnd : Nat}

/-! ## Virtual memory -/

lemma pageNumber_user (ha : a < userEnd) : pageNumber a = a / 4096 := by
  simp only [pageNumber, userEnd] at *
  omega

lemma pageNumber_lt (ha : a < userEnd) : pageNumber a < 2 ^ 35 := by
  rw [pageNumber_user ha]
  simp only [userEnd] at ha
  omega

/-- Different pages of the lower half have different frames. -/
structure FramesApart (s : UserImage) : Prop where
  aligned : ∀ P page, P < 2 ^ 35 → s.pages P = some page → 4096 ∣ page.1
  apart : ∀ P Q page page', P < 2 ^ 35 → Q < 2 ^ 35 → s.pages P = some page →
    s.pages Q = some page' → page.1 = page'.1 → P = Q

lemma FramesApart.phys_inj (h : FramesApart s) (ha : a < userEnd) (hb : b < userEnd)
    {page page' : Nat × Nat} (hpa : s.pages (pageNumber a) = some page)
    (hpb : s.pages (pageNumber b) = some page')
    (heq : (translation a page).phys = (translation b page').phys) : a = b := by
  have hda := h.aligned _ _ (pageNumber_lt ha) hpa
  have hdb := h.aligned _ _ (pageNumber_lt hb) hpb
  simp only [translation] at heq
  have hframe : page.1 = page'.1 := by omega
  have hpage := h.apart _ _ _ _ (pageNumber_lt ha) (pageNumber_lt hb) hpa hpb hframe
  rw [pageNumber_user ha, pageNumber_user hb] at hpage
  omega

/-- A write is seen at its own address only. -/
lemma FramesApart.read_write (h : FramesApart s) (ha : a < userEnd) (hb : b < userEnd) {c : UInt8}
    (hw : s.write a c = some s') :
    s'.pages = s.pages ∧ s'.read b = if b = a then some c else s.read b := by
  obtain ⟨page, hpage, rfl⟩ := map_eq_some_iff.mp hw
  refine ⟨rfl, ?_⟩
  by_cases hba : b = a
  · subst hba
    rw [if_pos rfl, UserImage.read, hpage]
    exact congrArg some (update_self _ _ _)
  · rw [if_neg hba, UserImage.read, UserImage.read]
    cases hpb : s.pages (pageNumber b) with
    | none => rfl
    | some page' =>
      refine congrArg some (update_of_ne (fun heq => hba ?_) _ _)
      exact h.phys_inj hb ha hpb hpage heq

lemma FramesApart.congr (h : FramesApart s) (hpages : s'.pages = s.pages) : FramesApart s' :=
  ⟨hpages ▸ h.aligned, hpages ▸ h.apart⟩

lemma UserImage.write_of_mapped (hmapped : s.pages (pageNumber a) ≠ none) (c : UInt8) :
    ∃ s', s.write a c = some s' := by
  obtain ⟨page, hpage⟩ := ne_none_iff_exists'.mp hmapped
  exact ⟨_, map_eq_some_iff.mpr ⟨page, hpage, rfl⟩⟩

/-- A copy into mapped pages returns, and changes the range that it writes. -/
lemma FramesApart.copy (h : FramesApart s) (src : Nat → UInt8) (hend : dst + n ≤ userEnd)
    (hmapped : ∀ k < n, s.pages (pageNumber (dst + k)) ≠ none) :
    ∃ s', s.copy dst src n = some s' ∧ s'.pages = s.pages ∧ ∀ b < userEnd,
      s'.read b = if dst ≤ b ∧ b < dst + n then some (src (b - dst)) else s.read b := by
  induction n with
  | zero =>
    refine ⟨s, rfl, rfl, fun b _ => ?_⟩
    rw [if_neg (by omega)]
  | succ n ih =>
    obtain ⟨s1, hcopy, hpages, hread⟩ := ih (by omega) fun k hk => hmapped k (by omega)
    have hlast : s1.pages (pageNumber (dst + n)) ≠ none := by
      rw [hpages]
      exact hmapped n (lt_succ_self n)
    obtain ⟨s2, hwrite⟩ := UserImage.write_of_mapped hlast (src n)
    have hin : dst + n < userEnd := by omega
    have hstep := fun b hb => (h.congr hpages).read_write (b := b) hin hb hwrite
    refine ⟨s2, ?_, (hstep 0 (by decide)).1.trans hpages, fun b hb => ?_⟩
    · rw [UserImage.copy, hcopy, bind_some, hwrite]
    · rw [(hstep b hb).2, hread b hb]
      by_cases hbn : b = dst + n
      · rw [if_pos hbn, if_pos (by omega), hbn, Nat.add_sub_cancel_left]
      · rw [if_neg hbn]
        by_cases hin : dst ≤ b ∧ b < dst + n
        · rw [if_pos hin, if_pos (by omega)]
        · rw [if_neg hin, if_neg (by omega)]

/-- No page of the lower half has the byte of physical memory. -/
def UserImage.Unmapped (s : UserImage) (x : Nat) : Prop :=
  ∀ P page, P < 2 ^ 35 → s.pages P = some page → ¬ (page.1 ≤ x ∧ x < page.1 + 4096)

/-- A copy that returns met mapped pages only, and wrote to their frames. -/
lemma UserImage.copy_returns (hend : dst + n ≤ userEnd) (h : s.copy dst src n = some s') :
    s'.pages = s.pages ∧ (∀ k < n, s.pages (pageNumber (dst + k)) ≠ none) ∧
      ∀ x, s.Unmapped x → s'.mem x = s.mem x := by
  induction n generalizing s' with
  | zero =>
    cases h
    exact ⟨rfl, fun k hk => absurd hk (not_lt_zero k), fun _ _ => rfl⟩
  | succ n ih =>
    obtain ⟨s1, hcopy, hwrite⟩ := bind_eq_some_iff.mp h
    obtain ⟨hpages, hmapped, hmem⟩ := ih (by omega) hcopy
    obtain ⟨page, hpage, rfl⟩ := map_eq_some_iff.mp hwrite
    rw [hpages] at hpage
    refine ⟨hpages, fun k hk => ?_, fun x hx => ?_⟩
    · rcases Nat.lt_succ_iff_lt_or_eq.mp hk with hlt | rfl
      · exact hmapped k hlt
      · exact ne_none_iff_exists'.mpr ⟨page, hpage⟩
    · have hout := hx _ page (pageNumber_lt (by omega)) hpage
      have hne : x ≠ (translation (dst + n) page).phys := by
        rintro rfl
        simp only [translation] at hout
        omega
      exact (update_of_ne hne _ _).trans (hmem x hx)

lemma mapPages_mem (s : UserImage) (paddr vaddr n : Nat) :
    (s.mapPages paddr vaddr n).mem = s.mem := by
  induction n with
  | zero => rfl
  | succ n ih => exact ih

lemma mapPages_pages {vaddr : Nat} (hend : ∀ j < n, vaddr + j * 4096 < userEnd) (P : Nat) :
    (s.mapPages paddr vaddr n).pages P = if pageNumber vaddr ≤ P ∧ P < pageNumber vaddr + n then
        some (paddr + (P - pageNumber vaddr) * 4096, loadFlags)
      else s.pages P := by
  induction n with
  | zero => rw [if_neg (by omega), UserImage.mapPages]
  | succ n ih =>
    have hlast := hend n (lt_succ_self n)
    have hpage : pageNumber (vaddr + n * 4096) = pageNumber vaddr + n := by
      rw [pageNumber_user hlast, pageNumber_user (by omega)]
      omega
    have hstep : (s.mapPages paddr vaddr (n + 1)).pages P =
        update (s.mapPages paddr vaddr n).pages (pageNumber vaddr + n)
          (some (paddr + n * 4096, loadFlags)) P := by
      rw [← hpage]
      rfl
    rw [hstep]
    by_cases hP : P = pageNumber vaddr + n
    · rw [hP, update_self, if_pos (by omega), Nat.add_sub_cancel_left]
    · rw [update_of_ne hP, ih fun j hj => hend j (by omega)]
      by_cases hin : pageNumber vaddr ≤ P ∧ P < pageNumber vaddr + n
      · rw [if_pos hin, if_pos (by omega)]
      · rw [if_neg hin, if_neg (by omega)]

/-- The calls of `vmm_map_page` for a segment, on the tables. -/
def mapTables (m : Mem) (pml4 paddr vaddr : Nat) (frames : Nat → List Nat) : Nat → Mem
  | 0 => m
  | n + 1 =>
    (vmmMapPage (mapTables m pml4 paddr vaddr frames n) (frames n) pml4 (paddr + n * 4096)
      (vaddr + n * 4096) pageSize4KB loadFlags).1

/-- Tables that hold the pages of the address space hold those of `mapPages` after the calls. -/
lemma mapTables_represents {m : Mem} {pml4 vaddr : Nat} {frames : Nat → List Nat}
    (h : Represents m pml4 s.pages)
    (hallowed : ∀ j < n, (PageOp.map (paddr + j * 4096) (vaddr + j * 4096) loadFlags
      (frames j)).Allowed (mapTables m pml4 paddr vaddr frames j) pml4) :
    Represents (mapTables m pml4 paddr vaddr frames n) pml4 (s.mapPages paddr vaddr n).pages := by
  induction n with
  | zero => exact h
  | succ n ih =>
    exact (ih fun j hj => hallowed j (by omega)).map (hallowed n (lt_succ_self n))

/-- After the calls for a segment the processor finds its pages one after the other in the frames
from `paddr` on, open to user mode, and every other address where it was. -/
theorem segment_tables_walk {m : Mem} {pml4 vaddr : Nat} {frames : Nat → List Nat}
    (h : Represents m pml4 s.pages) (hend : ∀ j < n, vaddr + j * 4096 < userEnd)
    (hallowed : ∀ j < n, (PageOp.map (paddr + j * 4096) (vaddr + j * 4096) loadFlags
      (frames j)).Allowed (mapTables m pml4 paddr vaddr frames j) pml4) (a : Nat) :
    walk (mapTables m pml4 paddr vaddr frames n) pml4 a =
      if pageNumber vaddr ≤ pageNumber a ∧ pageNumber a < pageNumber vaddr + n then
        some ⟨paddr + (pageNumber a - pageNumber vaddr) * 4096 + a % 4096, true, true⟩
      else walk m pml4 a := by
  obtain ⟨own, hF, hL⟩ := h
  obtain ⟨own', hF', hL'⟩ := mapTables_represents ⟨own, hF, hL⟩ hallowed
  rw [hL'.walk hF' rfl, hL.walk hF rfl, mapPages_pages hend]
  have hflags : loadFlags.testBit 1 = true ∧ loadFlags.testBit 2 = true := by decide
  split_ifs with hin
  · simp [translation, hflags]
  · rfl

/-! ## One segment -/

lemma pagesNeeded_eq (hmem : ph.memsz ≤ userEnd) : ph.pagesNeeded = (ph.memsz + 4095) / 4096 := by
  simp only [ElfPhdr.pagesNeeded, add64, sub64, userEnd] at *
  omega

/-- The pages that are mapped for a segment begin in the lower half. -/
lemma mapped_lt (hend : ph.vaddr + ph.memsz ≤ userEnd) {j : Nat} (hj : j < ph.pagesNeeded) :
    ph.vaddr + j * 4096 < userEnd := by
  rw [pagesNeeded_eq (by omega)] at hj
  omega

/-- A segment is filled when its pages are mapped. -/
lemma FramesApart.fill (h : FramesApart s) (file : Mem) (hsize : ph.filesz ≤ ph.memsz)
    (hend : ph.vaddr + ph.memsz ≤ userEnd)
    (hmapped : ∀ a, ph.Holds a → s.pages (pageNumber a) ≠ none) :
    ∃ s', s.fill file ph = some s' ∧ ∀ b < userEnd,
      s'.read b = if ph.Holds b then some (ph.byte file b) else s.read b := by
  obtain ⟨s2, hcopy, hpages, hread⟩ := h.copy (fun k => file (ph.offset + k))
    (show ph.vaddr + ph.filesz ≤ userEnd by omega)
    fun k hk => hmapped _ ⟨le_add_right _ _, by omega⟩
  obtain ⟨s3, hset, -, hread'⟩ := (h.congr hpages).copy (fun _ => 0)
    (show ph.vaddr + ph.filesz + (ph.memsz - ph.filesz) ≤ userEnd by omega) fun k hk => by
      rw [hpages]
      exact hmapped _ ⟨by omega, by omega⟩
  refine ⟨s3, by rw [UserImage.fill, hcopy, bind_some, hset], fun b hb => ?_⟩
  rw [hread' b hb, hread b hb]
  by_cases hin : ph.Holds b
  · obtain ⟨hlow, hhigh⟩ := id hin
    rw [if_pos hin, ElfPhdr.byte]
    by_cases hbyte : b < ph.vaddr + ph.filesz
    · rw [if_neg (by omega), if_pos ⟨hlow, hbyte⟩, if_pos hbyte]
    · rw [if_pos (by omega), if_neg hbyte]
  · rw [if_neg hin]
    simp only [ElfPhdr.Holds, not_and, not_lt] at hin
    rw [if_neg (by omega), if_neg (by omega)]

/-- A segment that was filled has its pages, and only their frames were written. -/
lemma UserImage.fill_returns (hsize : ph.filesz ≤ ph.memsz) (hend : ph.vaddr + ph.memsz ≤ userEnd)
    (h : s.fill file ph = some s') :
    s'.pages = s.pages ∧ (∀ a, ph.Holds a → s.pages (pageNumber a) ≠ none) ∧
      ∀ x, s.Unmapped x → s'.mem x = s.mem x := by
  obtain ⟨s2, hcopy, hset⟩ := bind_eq_some_iff.mp h
  obtain ⟨hpages, hmapped, hmem⟩ := copy_returns (by omega) hcopy
  obtain ⟨hpages', hmapped', hmem'⟩ := copy_returns (by omega) hset
  refine ⟨hpages'.trans hpages, fun a ⟨hlow, hhigh⟩ => ?_, fun x hx => ?_⟩
  · by_cases hin : a < ph.vaddr + ph.filesz
    · have hbyte := hmapped (a - ph.vaddr) (by omega)
      rwa [Nat.add_sub_cancel' hlow] at hbyte
    · have hbyte := hmapped' (a - (ph.vaddr + ph.filesz)) (by omega)
      rwa [Nat.add_sub_cancel' (not_lt.mp hin), hpages] at hbyte
  · exact (hmem' x fun P page hP hpage => hx P page hP (hpages ▸ hpage)).trans (hmem x hx)

/-- The byte of physical memory was handed out for the segment. -/
def HandedOut (file : Mem) (alloc : Nat → Nat) (i x : Nat) : Prop :=
  alloc i ≤ x ∧ x < alloc i + 4096 * (elfPhdr file i).pagesNeeded

/-- The page has the frame that was handed out for it with segment `k`. -/
def MappedFor (file : Mem) (alloc : Nat → Nat) (k P : Nat) (page : Nat × Nat) : Prop :=
  LoadsSegment file k ∧ (elfPhdr file k).Maps P ∧
    page = (alloc k + (P - pageNumber (elfPhdr file k).vaddr) * 4096, loadFlags)

/-- What holds after the first `n` rounds over the memory `m`. A segment has its bytes as long as
their page is not mapped again; afterwards there is what `m` has in the new frame. -/
structure LoadedUpTo (file : Mem) (alloc : Nat → Nat) (m : Mem) (n : Nat) (s : UserImage)
    (maxEnd : Nat) : Prop where
  origin : ∀ P page, P < 2 ^ 35 → s.pages P = some page → ∃ k < n, MappedFor file alloc k P page
  mapped : ∀ k < n, LoadsSegment file k → ∀ P, (elfPhdr file k).Maps P → s.pages P ≠ none
  untouched : ∀ x, (∀ k < n, LoadsSegment file k → ¬ HandedOut file alloc k x) → s.mem x = m x
  kept : ∀ i < n, LoadsSegment file i → ∀ a, (elfPhdr file i).Holds a →
    ¬ MappedAgain file i n a → s.read a = some ((elfPhdr file i).byte file a)
  lost : ∀ i < n, LoadsSegment file i → ∀ a, (elfPhdr file i).Holds a →
    MappedAgain file i n a → ∃ x, s.read a = some (m x)
  largest : LargestEnd file n maxEnd

/-- A page lies in what was handed out for its segment. -/
lemma MappedFor.handedOut {k : Nat} {page : Nat × Nat} (h : MappedFor file alloc k P page)
    (hlow : page.1 ≤ x) (hhigh : x < page.1 + 4096) : HandedOut file alloc k x := by
  obtain ⟨-, ⟨hfirst, hlast⟩, rfl⟩ := h
  simp only [HandedOut] at *
  omega

/-- What is handed out for a segment was not handed out before. -/
lemma PagesAvailable.fresh (h : PagesAvailable file alloc) (hload : LoadsSegment file n)
    (hx : HandedOut file alloc n x) :
    ∀ k < n, LoadsSegment file k → ¬ HandedOut file alloc k x := by
  intro k hk hloadk hxk
  have hapart := h.apart k n hk hloadk hload
  simp only [Apart, HandedOut] at *
  omega

lemma PagesAvailable.framesApart (h : PagesAvailable file alloc)
    (horigin : ∀ P page, P < 2 ^ 35 → s.pages P = some page →
      ∃ k < n, MappedFor file alloc k P page) : FramesApart s := by
  refine ⟨fun P page hP hpage => ?_, fun P Q page page' hP hQ hpage hpage' heq => ?_⟩
  · obtain ⟨k, -, hload, -, rfl⟩ := horigin P page hP hpage
    have halign := h.aligned k hload
    dsimp only
    omega
  · obtain ⟨k, -, hP⟩ := horigin P page hP hpage
    obtain ⟨j, -, hQ⟩ := horigin Q page' hQ hpage'
    have hk := hP.handedOut le_rfl (lt_add_of_pos_right page.1 (by decide))
    have hj := hQ.handedOut heq.ge (heq ▸ lt_add_of_pos_right page.1 (by decide))
    -- no frame was handed out for two segments
    obtain rfl : k = j := by
      rcases lt_trichotomy k j with hlt | heq | hlt
      · exact absurd hk (h.fresh hQ.1 hj k hlt hP.1)
      · exact heq
      · exact absurd hj (h.fresh hP.1 hk j hlt hQ.1)
    obtain ⟨-, hmP, rfl⟩ := hP
    obtain ⟨-, hmQ, rfl⟩ := hQ
    simp only [ElfPhdr.Maps] at hmP hmQ heq
    omega

/-- The pages of the address space with those of the next segment. -/
def MapsSegment (file : Mem) (alloc : Nat → Nat) (n : Nat) (s s₁ : UserImage) : Prop :=
  ∀ P, s₁.pages P = if (elfPhdr file n).Maps P then
    some (alloc n + (P - pageNumber (elfPhdr file n).vaddr) * 4096, loadFlags) else s.pages P

lemma mapPages_segment (hend : (elfPhdr file n).vaddr + (elfPhdr file n).memsz ≤ userEnd) :
    MapsSegment file alloc n s
      (s.mapPages (alloc n) (elfPhdr file n).vaddr (elfPhdr file n).pagesNeeded) := by
  intro P
  rw [mapPages_pages fun j hj => mapped_lt hend hj]
  by_cases hmaps : (elfPhdr file n).Maps P
  · rw [if_pos hmaps, if_pos ⟨hmaps.1, hmaps.2⟩]
  · rw [if_neg hmaps, if_neg fun hin => hmaps ⟨hin.1, hin.2⟩]

lemma MapsSegment.mappedFor {s1 : UserImage} (h : MapsSegment file alloc n s s1)
    (hload : LoadsSegment file n) {page : Nat × Nat} (hmaps : (elfPhdr file n).Maps P)
    (hpage : s1.pages P = some page) : MappedFor file alloc n P page := by
  rw [h, if_pos hmaps] at hpage
  exact ⟨hload, hmaps, (some_inj.mp hpage).symm⟩

lemma MapsSegment.old {s1 : UserImage} (h : MapsSegment file alloc n s s1) {page : Nat × Nat}
    (hmaps : ¬ (elfPhdr file n).Maps P) (hpage : s1.pages P = some page) :
    s.pages P = some page := by
  rwa [h, if_neg hmaps] at hpage

section

variable {s1 : UserImage} (h : LoadedUpTo file alloc m n s maxEnd)
  (havail : PagesAvailable file alloc) (hload : LoadsSegment file n)
  (hpages : MapsSegment file alloc n s s1)
include h havail hload hpages

omit havail in
lemma LoadedUpTo.map_origin {page : Nat × Nat} (hP : P < 2 ^ 35) (hpage : s1.pages P = some page) :
    ∃ k < n + 1, MappedFor file alloc k P page := by
  by_cases hmaps : (elfPhdr file n).Maps P
  · exact ⟨n, lt_succ_self n, hpages.mappedFor hload hmaps hpage⟩
  · obtain ⟨k, hk, hfor⟩ := h.origin P page hP (hpages.old hmaps hpage)
    exact ⟨k, lt_succ_of_lt hk, hfor⟩

omit havail hload in
lemma LoadedUpTo.map_mapped {k : Nat} (hk : k < n + 1) (hloadk : LoadsSegment file k)
    (hmaps : (elfPhdr file k).Maps P) : s1.pages P ≠ none := by
  rw [hpages]
  split_ifs with hmn
  · exact some_ne_none _
  · have hkn : k ≠ n := by
      rintro rfl
      exact hmn hmaps
    exact h.mapped k (by omega) hloadk P hmaps

/-- A byte of an earlier segment, once the pages of this one are mapped. -/
lemma LoadedUpTo.map_read (hmem : s1.mem = s.mem) (a : Nat) :
    ((elfPhdr file n).Maps (pageNumber a) → ∃ x, s1.read a = some (m x)) ∧
      (¬ (elfPhdr file n).Maps (pageNumber a) → s1.read a = s.read a) := by
  constructor
  · intro hmaps
    have hpage := hpages (pageNumber a)
    rw [if_pos hmaps] at hpage
    have hnew := (hpages.mappedFor hload hmaps hpage).handedOut (le_add_right _ (a % 4096))
      (by dsimp only; omega)
    have hold := h.untouched _ (havail.fresh hload hnew)
    rw [UserImage.read, hpage, hmem]
    exact ⟨_, congrArg some hold⟩
  · intro hmaps
    rw [UserImage.read, UserImage.read, hpages, if_neg hmaps, hmem]

end

lemma LargestEnd.reached_succ (h : LargestEnd file n maxEnd) : maxEnd = 0 ∨ ∃ i < n + 1,
    LoadsSegment file i ∧ maxEnd = (elfPhdr file i).vaddr + (elfPhdr file i).memsz :=
  h.reached.imp_right fun ⟨i, hi, hrest⟩ => ⟨i, lt_succ_of_lt hi, hrest⟩

lemma LargestEnd.segment (h : LargestEnd file n maxEnd) (hload : LoadsSegment file n)
    (hend : (elfPhdr file n).vaddr + (elfPhdr file n).memsz ≤ userEnd) :
    LargestEnd file (n + 1) (if maxEnd < add64 (elfPhdr file n).vaddr (elfPhdr file n).memsz then
        add64 (elfPhdr file n).vaddr (elfPhdr file n).memsz else maxEnd) := by
  have hadd : add64 (elfPhdr file n).vaddr (elfPhdr file n).memsz =
      (elfPhdr file n).vaddr + (elfPhdr file n).memsz := by
    refine mod_eq_of_lt (hend.trans_lt ?_)
    decide
  rw [hadd]
  refine ⟨fun i hi hloadi => ?_, ?_⟩
  · rcases Nat.lt_succ_iff_lt_or_eq.mp hi with hlt | rfl
    · have hbound := h.bound i hlt hloadi
      split_ifs <;> omega
    · split_ifs <;> omega
  · split_ifs with hlt
    · exact .inr ⟨n, lt_succ_self n, hload, rfl⟩
    · exact h.reached_succ

/-- A round for a segment that is loaded. -/
lemma loadSegment_eq_some_iff (htype : ph.type = ptLoad) :
    loadSegment file ph paddr s maxEnd = some r ↔ ph.pagesNeeded ≤ 2 ^ 19 ∧
      ∃ s', (s.mapPages paddr ph.vaddr ph.pagesNeeded).fill file ph = some s' ∧
        (s', if maxEnd < add64 ph.vaddr ph.memsz then add64 ph.vaddr ph.memsz else maxEnd) = r := by
  rw [loadSegment, if_neg (not_not.mpr htype)]
  by_cases hlong : 2 ^ 19 < ph.pagesNeeded
  · rw [if_pos hlong]
    exact iff_of_false nofun fun h => absurd h.1 (not_le.mpr hlong)
  · rw [if_neg hlong, map_eq_some_iff, and_iff_right (not_lt.mp hlong)]

/-- The next segment makes no difference for a page that it does not map. -/
lemma mappedAgain_succ (hi : i < n) (hload : LoadsSegment file n) :
    MappedAgain file i (n + 1) a ↔
      MappedAgain file i n a ∨ (elfPhdr file n).Maps (pageNumber a) := by
  constructor
  · rintro ⟨k, hik, hk, hloadk, hmaps⟩
    rcases Nat.lt_succ_iff_lt_or_eq.mp hk with hlt | rfl
    · exact .inl ⟨k, hik, hlt, hloadk, hmaps⟩
    · exact .inr hmaps
  · rintro (⟨k, hik, hk, hrest⟩ | hmaps)
    · exact ⟨k, hik, lt_succ_of_lt hk, hrest⟩
    · exact ⟨n, hi, lt_succ_self n, hload, hmaps⟩

lemma LoadedUpTo.segment (h : LoadedUpTo file alloc m n s maxEnd)
    (hfile : WellFormedElf file size) (havail : PagesAvailable file alloc)
    (hload : LoadsSegment file n) (hpresent : PagesPresent file n) :
    ∃ s' maxEnd', loadSegment file (elfPhdr file n) (alloc n) s maxEnd = some (s', maxEnd') ∧
      LoadedUpTo file alloc m (n + 1) s' maxEnd' := by
  have hend := hfile.user n hload
  have hsizes := hfile.sizes n hload
  have hsegment : MapsSegment file alloc n s _ := mapPages_segment hend
  have hframes := havail.framesApart fun P page => h.map_origin hload hsegment
  obtain ⟨s3, hfill, hread⟩ := hframes.fill file hsizes hend fun a ha => by
    obtain ⟨k, hk, hloadk, hmaps⟩ := hpresent.2 a ha
    exact h.map_mapped hsegment (lt_succ_of_le hk) hloadk hmaps
  obtain ⟨heq, -, hmem⟩ := UserImage.fill_returns hsizes hend hfill
  have hold := h.map_read havail hload hsegment (mapPages_mem s _ _ _)
  have hearlier : ∀ i < n, LoadsSegment file i → ∀ a, (elfPhdr file i).Holds a →
      s3.read a = (s.mapPages (alloc n) (elfPhdr file n).vaddr
        (elfPhdr file n).pagesNeeded).read a := fun i hi hloadi a ha => by
    rw [hread a (ha.2.trans_le (hfile.user i hloadi)),
      if_neg (hfile.apart i n hi hloadi hload a ha)]
  refine ⟨s3, _, (loadSegment_eq_some_iff hload.2).mpr ⟨hpresent.1, s3, hfill, rfl⟩,
    fun P page hP hpage => ?_, fun k hk hloadk P hmaps => ?_, fun x hx => ?_,
    fun i hi hloadi a ha hagain => ?_, fun i hi hloadi a ha hagain => ?_,
    h.largest.segment hload hend⟩
  · exact h.map_origin hload hsegment hP (heq ▸ hpage)
  · rw [heq]
    exact h.map_mapped hsegment hk hloadk hmaps
  · -- the copies write to frames that were handed out
    have hout : (s.mapPages (alloc n) (elfPhdr file n).vaddr
        (elfPhdr file n).pagesNeeded).Unmapped x := by
      rintro P page hP hpage ⟨hlow, hhigh⟩
      obtain ⟨k, hk, hfor⟩ := h.map_origin hload hsegment hP hpage
      exact hx k hk hfor.1 (hfor.handedOut hlow hhigh)
    rw [hmem x hout, mapPages_mem]
    exact h.untouched x fun k hk => hx k (lt_succ_of_lt hk)
  · rcases Nat.lt_succ_iff_lt_or_eq.mp hi with hlt | rfl
    · rw [mappedAgain_succ hlt hload, not_or] at hagain
      rw [hearlier i hlt hloadi a ha, (hold a).2 hagain.2]
      exact h.kept i hlt hloadi a ha hagain.1
    · rw [hread a (ha.2.trans_le hend), if_pos ha]
  · rcases Nat.lt_succ_iff_lt_or_eq.mp hi with hlt | rfl
    · rw [hearlier i hlt hloadi a ha]
      by_cases hmaps : (elfPhdr file n).Maps (pageNumber a)
      · exact (hold a).1 hmaps
      · rw [(hold a).2 hmaps]
        exact h.lost i hlt hloadi a ha
          (((mappedAgain_succ hlt hload).mp hagain).resolve_right hmaps)
    · obtain ⟨k, hik, hk, -⟩ := hagain
      omega

/-- A round that returns has found the pages of its segment. -/
lemma LoadedUpTo.present (h : LoadedUpTo file alloc m n s maxEnd)
    (hfile : WellFormedElf file size) (hload : LoadsSegment file n)
    (hround : loadSegment file (elfPhdr file n) (alloc n) s maxEnd = some r) :
    PagesPresent file n := by
  have hend := hfile.user n hload
  have hsegment : MapsSegment file alloc n s _ := mapPages_segment hend
  obtain ⟨hshort, s', hfill, -⟩ := (loadSegment_eq_some_iff hload.2).mp hround
  obtain ⟨-, hmapped, -⟩ := UserImage.fill_returns (hfile.sizes n hload) hend hfill
  refine ⟨hshort, fun a ha => ?_⟩
  obtain ⟨page, hpage⟩ := ne_none_iff_exists'.mp (hmapped a ha)
  obtain ⟨k, hk, hloadk, hmaps, -⟩ :=
    h.map_origin hload hsegment (pageNumber_lt (ha.2.trans_le hend)) hpage
  exact ⟨k, le_of_lt_succ hk, hloadk, hmaps⟩

lemma LoadedUpTo.skip (h : LoadedUpTo file alloc m n s maxEnd) (hload : ¬ LoadsSegment file n) :
    LoadedUpTo file alloc m (n + 1) s maxEnd := by
  have hlt : ∀ {k}, k < n + 1 → LoadsSegment file k → k < n := by
    intro k hk hloadk
    refine lt_of_le_of_ne (le_of_lt_succ hk) ?_
    rintro rfl
    exact hload hloadk
  have hagain : ∀ {i a}, MappedAgain file i (n + 1) a → MappedAgain file i n a := by
    rintro i a ⟨k, hik, hk, hloadk, hmaps⟩
    exact ⟨k, hik, hlt hk hloadk, hloadk, hmaps⟩
  refine ⟨fun P page hP hpage => ?_, fun k hk hloadk => h.mapped k (hlt hk hloadk) hloadk,
    fun x hx => h.untouched x fun k hk => hx k (lt_succ_of_lt hk),
    fun i hi hloadi a ha hnot => h.kept i (hlt hi hloadi) hloadi a ha ?_,
    fun i hi hloadi a ha h' => h.lost i (hlt hi hloadi) hloadi a ha (hagain h'),
    fun i hi hloadi => h.largest.bound i (hlt hi hloadi) hloadi, ?_⟩
  · obtain ⟨k, hk, hfor⟩ := h.origin P page hP hpage
    exact ⟨k, lt_succ_of_lt hk, hfor⟩
  · rintro ⟨k, hik, hk, hrest⟩
    exact hnot ⟨k, hik, lt_succ_of_lt hk, hrest⟩
  · exact h.largest.reached_succ

/-! ## The whole file -/

lemma loadedUpTo_zero (hempty : ∀ P < 2 ^ 35, s.pages P = none) :
    LoadedUpTo file alloc s.mem 0 s 0 := by
  refine ⟨fun P page hP hpage => ?_, fun k hk => absurd hk (not_lt_zero k), fun _ _ => rfl,
    fun i hi => absurd hi (not_lt_zero i), fun i hi => absurd hi (not_lt_zero i),
    fun i hi => absurd hi (not_lt_zero i), .inl rfl⟩
  cases (hempty P hP).symm.trans hpage

/-- The rounds return exactly when each segment finds its pages. -/
lemma loadSegments_loaded (hfile : WellFormedElf file size) (havail : PagesAvailable file alloc)
    (hempty : ∀ P < 2 ^ 35, s.pages P = none) (hn : n ≤ elfPhnum file) :
    ((∀ i < n, LoadsSegment file i → PagesPresent file i) → ∃ s' maxEnd,
      loadSegments file alloc s n = some (s', maxEnd) ∧
        LoadedUpTo file alloc s.mem n s' maxEnd) ∧
    (loadSegments file alloc s n ≠ none → ∀ i < n, LoadsSegment file i → PagesPresent file i) := by
  induction n with
  | zero => exact ⟨fun _ => ⟨s, 0, rfl, loadedUpTo_zero hempty⟩,
      fun _ i hi => absurd hi (not_lt_zero i)⟩
  | succ n ih =>
    obtain ⟨hruns, hfound⟩ := ih (by omega)
    refine ⟨fun hpresent => ?_, fun hreturns i hi hloadi => ?_⟩
    · obtain ⟨s1, e1, hrun, hloaded⟩ := hruns fun i hi => hpresent i (lt_succ_of_lt hi)
      rw [loadSegments, hrun, bind_some]
      by_cases hload : LoadsSegment file n
      · exact hloaded.segment hfile havail hload (hpresent n (lt_succ_self n) hload)
      · have htype : (elfPhdr file n).type ≠ ptLoad := fun htype => hload ⟨hn, htype⟩
        exact ⟨s1, e1, by rw [loadSegment, if_pos htype], hloaded.skip hload⟩
    · obtain ⟨r, hr⟩ := ne_none_iff_exists'.mp hreturns
      obtain ⟨r1, hrun, hround⟩ := bind_eq_some_iff.mp hr
      have hbefore := hfound (ne_none_iff_exists'.mpr ⟨r1, hrun⟩)
      rcases Nat.lt_succ_iff_lt_or_eq.mp hi with hlt | rfl
      · exact hbefore i hlt hloadi
      · obtain ⟨s1, e1, hrun1, hloaded⟩ := hruns hbefore
        cases hrun.symm.trans hrun1
        exact hloaded.present hfile hloadi hround

/-- A byte of a segment. -/
lemma ImageOf.read_byte (h : ImageOf file s) (hload : LoadsSegment file i)
    (ha : (elfPhdr file i).Holds a) : s.read a = some ((elfPhdr file i).byte file a) := by
  obtain ⟨hlow, hhigh⟩ := ha
  obtain ⟨k, rfl⟩ := Nat.exists_eq_add_of_le hlow
  rw [ElfPhdr.byte, Nat.add_sub_cancel_left]
  split_ifs with hin
  · exact h.bytes i hload k (by omega)
  · exact h.zeros i hload k (by omega) (by omega)

lemma LoadedUpTo.imageOf (h : LoadedUpTo file alloc m (elfPhnum file) s maxEnd)
    (hfile : WellFormedElf file size) (hkept : PagesKept file) : ImageOf file s := by
  have hread : ∀ i, LoadsSegment file i → ∀ a, (elfPhdr file i).Holds a →
      s.read a = some ((elfPhdr file i).byte file a) := fun i hload a ha =>
    h.kept i hload.1 hload a ha ((hkept i hload).2 a ha)
  have hbyte : ∀ i, LoadsSegment file i → ∀ k < (elfPhdr file i).memsz,
      s.read ((elfPhdr file i).vaddr + k) =
        some ((elfPhdr file i).byte file ((elfPhdr file i).vaddr + k)) := fun i hload k hk =>
    hread i hload _ ⟨le_add_right _ _, Nat.add_lt_add_left hk _⟩
  refine ⟨fun i hload a ha => ?_, fun i hload k hk => ?_, fun i hload k hlow hk => ?_⟩
  · have hP := pageNumber_lt (ha.2.trans_le (hfile.user i hload))
    obtain ⟨page, hpage, -⟩ := map_eq_some_iff.mp (hread i hload a ha)
    obtain ⟨k, -, -, -, hfor⟩ := h.origin _ _ hP hpage
    have hflags : page.2 = loadFlags := congrArg Prod.snd hfor
    refine ⟨page, hpage, ?_⟩
    rw [hflags]
    decide
  · rw [hbyte i hload k (hk.trans_le (hfile.sizes i hload)), ElfPhdr.byte,
      if_pos (Nat.add_lt_add_left hk _), Nat.add_sub_cancel_left]
  · rw [hbyte i hload k hk, ElfPhdr.byte, if_neg (by omega)]

/-- The loader returns with what the program headers say, and the largest end of a segment. -/
def LoadsAsDescribed (file : Mem) (alloc : Nat → Nat) (s : UserImage) (endPtr : Nat) : Prop :=
  ∃ s' maxEnd, loadElf file alloc s endPtr = some (s', elfEntry file, maxEnd) ∧
    ImageOf file s' ∧ LargestEnd file (elfPhnum file) maxEnd

/-- Over every memory a file is loaded as its program headers say, if and only if its segments
keep their pages. -/
theorem elf_loaded_as_described_iff (hfile : WellFormedElf file size)
    (havail : PagesAvailable file alloc) :
    (∀ s endPtr, (∀ P < 2 ^ 35, s.pages P = none) → LoadsAsDescribed file alloc s endPtr) ↔
      PagesKept file := by
  constructor
  · intro hall i hload
    have hloaded : ∀ c, ∃ s' maxEnd, ImageOf file s' ∧ PagesPresent file i ∧
        LoadedUpTo file alloc (fun _ => c) (elfPhnum file) s' maxEnd := by
      intro c
      obtain ⟨s', maxEnd, hrun, himage, -⟩ := hall ⟨fun _ => none, fun _ => c⟩ 0 fun _ _ => rfl
      rw [loadElf, if_pos hfile.magic] at hrun
      obtain ⟨⟨s1, e1⟩, hrounds, heq⟩ := map_eq_some_iff.mp hrun
      cases heq
      obtain ⟨hruns, hfound⟩ := loadSegments_loaded (s := ⟨fun _ => none, fun _ => c⟩) hfile
        havail (fun _ _ => rfl) (le_refl (elfPhnum file))
      have hpresent := hfound (ne_none_iff_exists'.mpr ⟨_, hrounds⟩)
      obtain ⟨s1, e1, hrounds', hloaded⟩ := hruns hpresent
      cases hrounds.symm.trans hrounds'
      exact ⟨_, _, himage, hpresent i hload.1 hload, hloaded⟩
    refine ⟨?_, fun a ha hagain => ?_⟩
    · obtain ⟨-, -, -, hpresent, -⟩ := hloaded 0
      exact hpresent
    · -- a memory of other bytes shows that the page was mapped again
      obtain ⟨s', maxEnd, himage, -, hloaded⟩ := hloaded ((elfPhdr file i).byte file a + 1)
      obtain ⟨x, hread⟩ := hloaded.lost i hload.1 hload a ha hagain
      have heq := some_inj.mp (hread.symm.trans (himage.read_byte hload ha))
      exact absurd (UInt8.add_eq_left.mp heq) (by decide)
  · intro hkept s endPtr hempty
    obtain ⟨s', maxEnd, hrun, hloaded⟩ :=
      (loadSegments_loaded hfile havail hempty le_rfl).1 fun i _ hload => (hkept i hload).1
    refine ⟨s', maxEnd, ?_, hloaded.imageOf hfile hkept, hloaded.largest⟩
    rw [loadElf, if_pos hfile.magic, hrun]
    rfl

/-- A file with nothing but its headers. -/
def headersOnly (phdrs : List ElfPhdr) : Mem :=
  let ident := store64 (fun _ => 0) 0 0x02464c457f
  let header := store (store64 ident 32 64) 56 2 phdrs.length
  phdrs.zipIdx.foldl (fun m x =>
    let a := 64 + 56 * x.2
    store64 (store64 (store64 (store64 (store32 m a x.1.type) (a + 8) x.1.offset) (a + 16)
      x.1.vaddr) (a + 32) x.1.filesz) (a + 40) x.1.memsz) header

/-- An address space without pages over memory of zeros. -/
def emptyImage : UserImage := ⟨fun _ => none, fun _ => 0⟩

/-- One page, mapped in an empty address space. -/
theorem segment_tables_walk_one :
    walk (mapTables (fun _ => 0) 0x1000 0x5000 0x400000
      (fun _ => [0x2000, 0x3000, 0x4000]) 1) 0x1000
      0x400123 = some ⟨0x5123, true, true⟩ := by
  have hzero : ∀ i < 512, entry (fun _ => 0) 0x1000 i = 0 :=
    fun i _ => load64_eq_zero fun _ _ _ => rfl
  refine segment_tables_walk (s := emptyImage)
    (represents_empty ⟨by decide, by decide⟩ hzero) ?_ ?_ _
  · intro j hj
    simp only [userEnd]
    omega
  · intro j hj
    obtain rfl : j = 0 := by omega
    refine ⟨⟨by decide, by decide⟩, by decide, by decide, fun f hf => ?_,
      mapSupplied_of_length (by decide) _ _ _ _⟩
    have hcases : f = 0x2000 ∨ f = 0x3000 ∨ f = 0x4000 := by simpa using hf
    refine ⟨by rcases hcases with rfl | rfl | rfl <;> exact ⟨by decide, by decide⟩, ?_⟩
    rintro (rfl | ⟨l, hl⟩)
    · omega
    · exact not_tableBehind_of_empty hzero hl

/-- Two segments on two pages; the second has a part that is not in the file. -/
def twoPages : Mem :=
  headersOnly [⟨ptLoad, 0, 0x400000, 2, 2⟩, ⟨ptLoad, 4, 0x401004, 1, 3⟩]

/-- One segment of two bytes, on two pages. -/
def acrossPages : Mem := headersOnly [⟨ptLoad, 0, 0x400fff, 2, 2⟩]

/-- Two segments of one byte, on one page. -/
def samePage : Mem := headersOnly [⟨ptLoad, 0, 0x400000, 1, 1⟩, ⟨ptLoad, 1, 0x400001, 1, 1⟩]

lemma twoPages_headers : elfMagic twoPages = true ∧ elfPhnum twoPages = 2 ∧
    load64 twoPages 32 = 64 ∧ elfPhdr twoPages 0 = ⟨ptLoad, 0, 0x400000, 2, 2⟩ ∧
    elfPhdr twoPages 1 = ⟨ptLoad, 4, 0x401004, 1, 3⟩ := by decide +kernel

lemma acrossPages_headers : elfMagic acrossPages = true ∧ elfPhnum acrossPages = 1 ∧
    load64 acrossPages 32 = 64 ∧ elfPhdr acrossPages 0 = ⟨ptLoad, 0, 0x400fff, 2, 2⟩ := by
  decide +kernel

lemma samePage_headers : elfMagic samePage = true ∧ elfPhnum samePage = 2 ∧
    load64 samePage 32 = 64 ∧ elfPhdr samePage 0 = ⟨ptLoad, 0, 0x400000, 1, 1⟩ ∧
    elfPhdr samePage 1 = ⟨ptLoad, 1, 0x400001, 1, 1⟩ := by decide +kernel

/-- The conditions on a file with two segments. -/
lemma wellFormed_two {ph0 ph1 : ElfPhdr} (hmagic : elfMagic file = true)
    (hnum : elfPhnum file = 2) (hoff : load64 file 32 = 64) (h0 : elfPhdr file 0 = ph0)
    (h1 : elfPhdr file 1 = ph1)
    (hfits : ∀ ph ∈ [ph0, ph1], ph.offset + ph.filesz ≤ 176 ∧ ph.filesz ≤ ph.memsz ∧
      ph.vaddr + ph.memsz ≤ userEnd)
    (hapart : ph0.vaddr + ph0.memsz ≤ ph1.vaddr) : WellFormedElf file 176 := by
  have hcases : ∀ i, LoadsSegment file i → elfPhdr file i ∈ [ph0, ph1] := by
    rintro i ⟨hi, -⟩
    obtain rfl | rfl : i = 0 ∨ i = 1 := by omega
    · rw [h0]
      exact List.mem_cons_self
    · rw [h1]
      exact List.mem_cons_of_mem _ List.mem_cons_self
  refine ⟨hmagic, by rw [hoff, hnum], fun i hi => (hfits _ (hcases i hi)).1,
    fun i hi => (hfits _ (hcases i hi)).2.1, fun i hi => (hfits _ (hcases i hi)).2.2, ?_⟩
  rintro i j hij ⟨hi, -⟩ ⟨hj, -⟩ a ha
  obtain ⟨rfl, rfl⟩ : i = 0 ∧ j = 1 := by omega
  rw [h0] at ha
  rw [h1]
  rintro ⟨hlow, -⟩
  have hhigh := ha.2
  omega

lemma available_two (hnum : elfPhnum file = 2) (h0 : (elfPhdr file 0).pagesNeeded = 1)
    (h1 : (elfPhdr file 1).pagesNeeded = 1) : PagesAvailable file fun i => 0x10000 + 4096 * i := by
  refine ⟨fun i _ => by omega, ?_⟩
  rintro i j hij ⟨hi, -⟩ ⟨hj, -⟩
  obtain ⟨rfl, rfl⟩ : i = 0 ∧ j = 1 := by omega
  rw [h0, h1]
  exact .inl (by decide)

theorem elf_loaded_as_described_two_pages :
    LoadsAsDescribed twoPages (fun i => 0x10000 + 4096 * i) emptyImage 0 := by
  obtain ⟨hmagic, hnum, hoff, h0, h1⟩ := twoPages_headers
  have hfile : WellFormedElf twoPages 176 :=
    wellFormed_two hmagic hnum hoff h0 h1 (by decide) (by decide)
  have havail := available_two hnum (by rw [h0]; decide) (by rw [h1]; decide)
  have hkept : PagesKept twoPages := by
    rintro i ⟨hi, htype⟩
    obtain rfl | rfl : i = 0 ∨ i = 1 := by omega
    · have hpage : ∀ a, (elfPhdr twoPages 0).Holds a → pageNumber a = 0x400 := by
        intro a ha
        rw [h0] at ha
        simp only [ElfPhdr.Holds, pageNumber] at *
        omega
      refine ⟨⟨by rw [h0]; decide, fun a ha => ⟨0, le_rfl, ⟨hi, htype⟩, ?_⟩⟩, ?_⟩
      · rw [hpage a ha, h0]
        decide
      · rintro a ha ⟨k, hk, hk', -, hmaps⟩
        obtain rfl : k = 1 := by omega
        rw [hpage a ha, h1] at hmaps
        exact absurd hmaps (by decide)
    · refine ⟨⟨by rw [h1]; decide, fun a ha => ⟨1, le_rfl, ⟨hi, htype⟩, ?_⟩⟩, ?_⟩
      · have hpage : pageNumber a = 0x401 := by
          rw [h1] at ha
          simp only [ElfPhdr.Holds, pageNumber] at *
          omega
        rw [hpage, h1]
        decide
      · rintro a ha ⟨k, hk, hk', -⟩
        omega
  exact (elf_loaded_as_described_iff hfile havail).mpr hkept emptyImage 0 fun _ _ => rfl

lemma samePage_read : (loadElf samePage (fun i => 0x10000 + 4096 * i) emptyImage 0).map
      (fun r => r.1.read 0x400000) = some (some 0) := by decide +kernel

/-- A segment that begins inside a page can lack its last page, and then the copy faults. Two
segments on one page get two frames for it, and what was written to the first is lost. -/
theorem elf_page_missing_or_lost :
    (∃ file size alloc s, WellFormedElf file size ∧ PagesAvailable file alloc ∧
      (∀ P < 2 ^ 35, s.pages P = none) ∧ loadElf file alloc s 0 = none) ∧
    ∃ file size alloc s s' r, WellFormedElf file size ∧ PagesAvailable file alloc ∧
      (∀ P < 2 ^ 35, s.pages P = none) ∧ loadElf file alloc s 0 = some (s', r) ∧
      ¬ ImageOf file s' := by
  constructor
  · obtain ⟨hmagic, hnum, hoff, h0⟩ := acrossPages_headers
    have honly : ∀ i, LoadsSegment acrossPages i → i = 0 := by
      rintro i ⟨hi, -⟩
      omega
    have hfits : ∀ i, LoadsSegment acrossPages i →
        elfPhdr acrossPages i = ⟨ptLoad, 0, 0x400fff, 2, 2⟩ := fun i hi => honly i hi ▸ h0
    refine ⟨acrossPages, 120, fun _ => 0x10000, emptyImage, ⟨hmagic, by rw [hoff, hnum], ?_, ?_, ?_,
      ?_⟩, ⟨fun _ _ => by decide, ?_⟩, fun _ _ => rfl, ?_⟩
    · intro i hi
      rw [hfits i hi]
      decide
    · intro i hi
      rw [hfits i hi]
    · intro i hi
      rw [hfits i hi]
      decide
    · intro i j hij hi hj
      exact absurd ((honly i hi).trans (honly j hj).symm) (Nat.ne_of_lt hij)
    · intro i j hij hi hj
      exact absurd ((honly i hi).trans (honly j hj).symm) (Nat.ne_of_lt hij)
    · rw [loadElf, if_pos hmagic, hnum, loadSegments, h0]
      rfl
  · obtain ⟨hmagic, hnum, hoff, h0, h1⟩ := samePage_headers
    have hfile : WellFormedElf samePage 176 :=
      wellFormed_two hmagic hnum hoff h0 h1 (by decide) (by decide)
    have havail := available_two hnum (by rw [h0]; decide) (by rw [h1]; decide)
    have hload : LoadsSegment samePage 0 := ⟨by rw [hnum]; decide, by rw [h0]⟩
    obtain ⟨⟨s', r⟩, hrun, hread⟩ := map_eq_some_iff.mp samePage_read
    refine ⟨samePage, 176, _, emptyImage, s', r, hfile, havail, fun _ _ => rfl, hrun,
      fun himage => ?_⟩
    have hbyte := himage.bytes 0 hload 0 (by rw [h0]; decide)
    rw [h0] at hbyte
    have hfirst : samePage 0 = 0 := some_inj.mp (hbyte.symm.trans hread)
    revert hfirst
    decide +kernel

end DestinX.Vm
