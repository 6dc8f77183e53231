import DestinX.Pmm.Pmm

/-!
# `init_PMM`

The pages of the available memory above 1 MiB are freed from the first page that an entry of the
memory map touches, in steps of a page for as long as the address is below the end of the entry.
Then the kernel and the bitmap are marked. An entry need not begin or end at a page: its first
and its last page are freed as a whole, and the last one can lie behind the bitmap.
-/

namespace DestinX.Pmm

open Base List Nat

def kernelOffset : Nat := 0xFFFFFFFF80000000

/-- The tables of `boot.asm` map 64 pages of 2 MiB at `KERNEL_OFFSET`. -/
def windowSize : Nat := 64 * 2 ^ 21

/-- `multiboot_mmap_entry` -/
structure MmapEntry where
  (addr len type : Nat)

def memoryAvailable : Nat := 1

/-- `addr + len` -/
def MmapEntry.last (e : MmapEntry) : Nat := (e.addr + e.len) % 2 ^ 64

/-- The tags of the boot information: memory maps and others. -/
inductive BootTag where
  | mmap (entries : List MmapEntry)
  | other

def BootTag.entries : BootTag → List MmapEntry
  | .mmap entries => entries
  | .other => []

/-- Where the linker puts the image: `kernel_start` is 1 MiB above `KERNEL_OFFSET`. -/
def kernelStart : Nat := kernelOffset + 0x100000

structure KernelImage where
  kernelEnd : Nat
  above : kernelStart < kernelEnd
  lt : kernelEnd < 2 ^ 64

/-- The body of the first loop over the memory map. -/
def maxEnd (maxAddr : Nat) (e : MmapEntry) : Nat :=
  if e.type = memoryAvailable then if maxAddr < e.last then e.last else maxAddr else maxAddr

def maxAddr (tags : List BootTag) : Nat :=
  tags.foldl (fun a tag => tag.entries.foldl maxEnd a) 0

/-- The bitmap, and the bits that were written one by one. -/
structure Marking where
  bitmap : Bitmap
  touched : List Nat

def Marking.clr (page : Nat) (s : Marking) : Marking :=
  ⟨bitmapClr s.bitmap page, page :: s.touched⟩

def Marking.set (page : Nat) (s : Marking) : Marking :=
  ⟨bitmapSet s.bitmap page, page :: s.touched⟩

/-- `for (uint64_t addr = …; addr < last; addr += PAGE_SIZE_4KB)`, with the page of the address
passed to the body. -/
def pageLoop (body : Nat → Marking → Marking) : Nat → Nat → Nat → Marking → Option Marking
  | 0, _, _, _ => none
  | fuel + 1, addr, last, s =>
    if addr < last then
      pageLoop body fuel ((addr + pageSize) % 2 ^ 64) last (body (addr / pageSize) s)
    else some s

/-- The second loop over the memory map. -/
def freeAvailable (fuel : Nat) (tags : List BootTag) (s : Marking) : Option Marking :=
  tags.foldlM (fun s tag => tag.entries.foldlM (fun s e =>
    if e.type = memoryAvailable ∧ 0x100000 ≤ e.addr then pageLoop Marking.clr fuel e.addr e.last s
    else some s) s) s

structure PmmInit where
  (totalPages bitmapSize physKernelStart physKernelEnd : Nat)
  marking : Marking

/-- `init_PMM`. The bitmap lies behind the kernel, in memory that holds anything. There is no result
if it ends behind the memory that is mapped at `KERNEL_OFFSET`: the `memset` faults. -/
def initPMM (fuel : Nat) (tags : List BootTag) (image : KernelImage) (memory : Bitmap) :
    Option PmmInit := do
  let totalPages := maxAddr tags / pageSize
  let bitmapSize := (totalPages + 7) / 8
  guard (image.kernelEnd + bitmapSize ≤ kernelOffset + windowSize)
  let cleared : Marking := ⟨fun k => if k < bitmapSize then 0xFF else memory k, []⟩
  let freed ← freeAvailable fuel tags cleared
  let physKernelStart := (kernelStart + 2 ^ 64 - kernelOffset) % 2 ^ 64
  let physKernelEnd := (image.kernelEnd + bitmapSize + 2 ^ 64 - kernelOffset) % 2 ^ 64
  let marking ← pageLoop Marking.set fuel physKernelStart physKernelEnd freed
  return ⟨totalPages, bitmapSize, physKernelStart, physKernelEnd, marking⟩

/-! ## The loop over pages -/

/-- The rounds of the loop over `len` bytes. -/
def pagesOf (len : Nat) : Nat := (len + 4095) / 4096

variable {body : Nat → Marking → Marking} {fuel addr last p q : Nat} {s s' : Marking}
  {tags : List BootTag} {es : List MmapEntry} {e : MmapEntry}

/-- A loop that ends has not wrapped around, and has passed the pages in order. -/
lemma pageLoop_some (haddr : addr < 2 ^ 64) (h : pageLoop body fuel addr last s = some s') :
    (last ≤ addr ∨ addr + pagesOf (last - addr) * 4096 < 2 ^ 64) ∧
      s' = (List.range' (addr / 4096) (pagesOf (last - addr))).foldl (fun s p => body p s) s := by
  induction fuel generalizing addr s with
  | zero => exact absurd h.symm (Option.some_ne_none s')
  | succ fuel ih =>
    rw [pageLoop] at h
    by_cases hlt : addr < last
    · rw [if_pos hlt] at h
      obtain ⟨hends, hs'⟩ := ih (mod_lt _ (by norm_num)) h
      simp only [pagesOf, pageSize] at hends hs' ⊢
      -- an address behind the wrap would have to be a step below the last one
      have hnext : addr + 4096 < 2 ^ 64 := by omega
      rw [mod_eq_of_lt hnext] at hends hs'
      have hrounds : (last - addr + 4095) / 4096 = (last - (addr + 4096) + 4095) / 4096 + 1 := by
        omega
      have hpage : (addr + 4096) / 4096 = addr / 4096 + 1 := by omega
      constructor
      · omega
      · rw [hs', hrounds, range'_succ, foldl_cons, hpage]
    · rw [if_neg hlt] at h
      have hzero : pagesOf (last - addr) = 0 := by
        simp only [pagesOf]
        omega
      rw [hzero]
      exact ⟨.inl (not_lt.mp hlt), (Option.some_inj.mp h).symm⟩

lemma pageLoop_ends (hends : last ≤ addr ∨ addr + pagesOf (last - addr) * 4096 < 2 ^ 64)
    (hfuel : pagesOf (last - addr) < fuel) : ∃ s', pageLoop body fuel addr last s = some s' := by
  induction fuel generalizing addr s with
  | zero => exact absurd hfuel (not_lt_zero _)
  | succ fuel ih =>
    rw [pageLoop]
    by_cases hlt : addr < last
    · simp only [pagesOf, pageSize] at hends hfuel ih ⊢
      have hnext : addr + 4096 < 2 ^ 64 := by omega
      rw [if_pos hlt]
      exact ih (by omega) (by omega)
    · rw [if_neg hlt]
      exact ⟨s, rfl⟩

lemma foldl_clr (pages : List Nat) (s : Marking) (q : Nat) :
    (bitmapTest (pages.foldl (fun s p => s.clr p) s).bitmap q = false ↔
      bitmapTest s.bitmap q = false ∨ q ∈ pages) ∧
    (q ∈ (pages.foldl (fun s p => s.clr p) s).touched ↔ q ∈ s.touched ∨ q ∈ pages) := by
  induction pages generalizing s with
  | nil => simp
  | cons p pages ih =>
    obtain ⟨hbit, htouched⟩ := ih (s.clr p)
    rw [foldl_cons, hbit, htouched]
    by_cases hq : q = p
    · simp [Marking.clr, hq]
    · simp [Marking.clr, hq]

lemma foldl_set (pages : List Nat) (s : Marking) (q : Nat) :
    (bitmapTest (pages.foldl (fun s p => s.set p) s).bitmap q = false ↔
      bitmapTest s.bitmap q = false ∧ q ∉ pages) ∧
    (q ∈ (pages.foldl (fun s p => s.set p) s).touched ↔ q ∈ s.touched ∨ q ∈ pages) := by
  induction pages generalizing s with
  | nil => simp
  | cons p pages ih =>
    obtain ⟨hbit, htouched⟩ := ih (s.set p)
    rw [foldl_cons, hbit, htouched]
    by_cases hq : q = p
    · simp [Marking.set, hq]
    · simp [Marking.set, hq]

/-! ## The entries of the memory map -/

/-- The base and the length do not wrap around. -/
def MmapEntry.NoWrap (e : MmapEntry) : Prop := e.addr + e.len < 2 ^ 64

instance (e : MmapEntry) : Decidable e.NoWrap := inferInstanceAs (Decidable (_ < _))

/-- Available memory above 1 MiB. -/
def MmapEntry.Usable (e : MmapEntry) : Prop := e.type = memoryAvailable ∧ 0x100000 ≤ e.addr

instance (e : MmapEntry) : Decidable e.Usable := inferInstanceAs (Decidable (_ ∧ _))

/-- The address does not wrap around before it is behind the entry. -/
def MmapEntry.Ends (e : MmapEntry) : Prop := e.len = 0 ∨ e.addr + pagesOf e.len * 4096 < 2 ^ 64

/-- The page is freed for the entry. -/
def MmapEntry.Frees (e : MmapEntry) (q : Nat) : Prop :=
  e.Usable ∧ e.addr / 4096 ≤ q ∧ q < e.addr / 4096 + pagesOf e.len

/-- The entries of all memory maps. -/
def bootEntries (tags : List BootTag) : List MmapEntry := tags.flatMap BootTag.entries

/-- The loop for one entry. -/
def freeEntry (fuel : Nat) (s : Marking) (e : MmapEntry) : Option Marking :=
  if e.Usable then pageLoop Marking.clr fuel e.addr e.last s else some s

lemma freeAvailable_eq (fuel : Nat) (tags : List BootTag) (s : Marking) :
    freeAvailable fuel tags s = (bootEntries tags).foldlM (freeEntry fuel) s := by
  rw [freeAvailable, bootEntries]
  induction tags generalizing s with
  | nil => rfl
  | cons tag tags ih =>
    rw [flatMap_cons, foldlM_append]
    exact bind_congr ih

lemma MmapEntry.NoWrap.last_eq (h : e.NoWrap) : e.last = e.addr + e.len := mod_eq_of_lt h

/-- One entry, if its loop ends. -/
lemma freeEntry_some (hwrap : e.NoWrap) (h : freeEntry fuel s e = some s') : (e.Usable → e.Ends) ∧
      (∀ q, bitmapTest s'.bitmap q = false ↔ bitmapTest s.bitmap q = false ∨ e.Frees q) ∧
      ∀ q, q ∈ s'.touched ↔ q ∈ s.touched ∨ e.Frees q := by
  rw [freeEntry] at h
  by_cases husable : e.Usable
  · have hwrap' : e.addr + e.len < 2 ^ 64 := hwrap
    rw [if_pos husable, hwrap.last_eq] at h
    obtain ⟨hends, rfl⟩ := pageLoop_some (by omega) h
    rw [Nat.add_sub_cancel_left] at hends ⊢
    have hmem : ∀ q, q ∈ List.range' (e.addr / 4096) (pagesOf e.len) ↔ e.Frees q := by
      intro q
      rw [mem_range'_1, MmapEntry.Frees, and_iff_right husable]
    refine ⟨fun _ => ?_, fun q => ?_, fun q => ?_⟩
    · rcases hends with hzero | hends
      · exact .inl (by omega)
      · exact .inr hends
    · rw [(foldl_clr _ s q).1, hmem]
    · rw [(foldl_clr _ s q).2, hmem]
  · rw [if_neg husable] at h
    cases h
    have hnone : ∀ q, ¬ e.Frees q := fun q hq => husable hq.1
    refine ⟨fun hu => absurd hu husable, fun q => ?_, fun q => ?_⟩
    · rw [or_iff_left (hnone q)]
    · rw [or_iff_left (hnone q)]

lemma freeEntries_some (hwrap : ∀ e ∈ es, e.NoWrap) (h : es.foldlM (freeEntry fuel) s = some s') :
    (∀ e ∈ es, e.Usable → e.Ends) ∧ (∀ q, bitmapTest s'.bitmap q = false ↔
        bitmapTest s.bitmap q = false ∨ ∃ e ∈ es, e.Frees q) ∧
      ∀ q, q ∈ s'.touched ↔ q ∈ s.touched ∨ ∃ e ∈ es, e.Frees q := by
  induction es generalizing s with
  | nil =>
    cases h
    simp
  | cons e es ih =>
    obtain ⟨s1, h1, h⟩ := Option.bind_eq_some_iff.mp h
    obtain ⟨hends1, hbit1, htouched1⟩ := freeEntry_some (hwrap e mem_cons_self) h1
    obtain ⟨hends, hbit, htouched⟩ := ih (fun e' he' => hwrap e' (mem_cons_of_mem e he')) h
    simp only [forall_mem_cons, exists_mem_cons_iff]
    refine ⟨⟨hends1, hends⟩, fun q => ?_, fun q => ?_⟩
    · rw [hbit, hbit1, or_assoc]
    · rw [htouched, htouched1, or_assoc]

lemma freeEntries_ends (hwrap : ∀ e ∈ es, e.NoWrap) (hends : ∀ e ∈ es, e.Usable → e.Ends)
    (hfuel : ∀ e ∈ es, pagesOf e.len < fuel) : ∃ s', es.foldlM (freeEntry fuel) s = some s' := by
  induction es generalizing s with
  | nil => exact ⟨s, rfl⟩
  | cons e es ih =>
    rw [forall_mem_cons] at hwrap hends hfuel
    have hone : ∃ s1, freeEntry fuel s e = some s1 := by
      rw [freeEntry]
      by_cases husable : e.Usable
      · rw [if_pos husable, hwrap.1.last_eq]
        apply pageLoop_ends
        · rw [Nat.add_sub_cancel_left]
          rcases hends.1 husable with hzero | hlt
          · exact .inl (by omega)
          · exact .inr hlt
        · rw [Nat.add_sub_cancel_left]
          exact hfuel.1
      · rw [if_neg husable]
        exact ⟨s, rfl⟩
    obtain ⟨s1, h1⟩ := hone
    obtain ⟨s', h'⟩ := ih hwrap.2 hends.2 hfuel.2
    refine ⟨s', ?_⟩
    rw [foldlM_cons, h1]
    exact h'

/-! ## What is free afterwards -/

/-- All bytes of the page are in available memory above 1 MiB. -/
def WholePage (es : List MmapEntry) (p : Nat) : Prop :=
  ∀ b, p * 4096 ≤ b → b < (p + 1) * 4096 → ∃ e ∈ es, e.Usable ∧ e.addr ≤ b ∧ b < e.addr + e.len

/-- A page below `total_pages` is free only if all of its bytes are usable and none belongs to the
kernel or the bitmap, and no bit is written behind the bytes of the bitmap. -/
def PmmInit.Sound (r : PmmInit) (es : List MmapEntry) : Prop :=
  (∀ p < r.totalPages, bitmapTest r.marking.bitmap p = false → WholePage es p ∧
    ∀ b, p * 4096 ≤ b → b < (p + 1) * 4096 → ¬ (r.physKernelStart ≤ b ∧ b < r.physKernelEnd)) ∧
  ∀ p ∈ r.marking.touched, r.totalPages ≤ p → p / 8 < r.bitmapSize

/-- `init_PMM` returns, with a sound bitmap. -/
def InitSound (tags : List BootTag) (image : KernelImage) (memory : Bitmap) : Prop :=
  ∃ fuel r, initPMM fuel tags image memory = some r ∧ r.Sound (bootEntries tags)

/-- The bytes of the bitmap. -/
def bitmapBytes (tags : List BootTag) : Nat := (maxAddr tags / pageSize + 7) / 8

/-- The end of the kernel and the bitmap in physical memory. -/
def KernelImage.physEnd (image : KernelImage) (tags : List BootTag) : Nat :=
  image.kernelEnd - kernelOffset + bitmapBytes tags

/-- The page meets the kernel or the bitmap. -/
def KernelImage.Holds (image : KernelImage) (tags : List BootTag) (p : Nat) : Prop :=
  256 ≤ p ∧ p * 4096 < image.physEnd tags

/-- The loop over the entry ends. Its first and its last page, as far as they are below
`total_pages`, are usable as a whole or belong to the kernel, and the last bit lies in the
bitmap. -/
structure MmapEntry.Fits (e : MmapEntry) (tags : List BootTag) (image : KernelImage) : Prop where
  ends : e.Ends
  edges : ∀ p, p = e.addr / 4096 ∨ p = e.addr / 4096 + pagesOf e.len - 1 →
    p < maxAddr tags / pageSize → WholePage (bootEntries tags) p ∨ image.Holds tags p
  inside : e.addr / 4096 + pagesOf e.len ≤ 8 * bitmapBytes tags

/-- Every usable entry that is not empty fits, the bits of the kernel and the bitmap lie in the
bitmap, and the bitmap ends below 128 MiB. -/
def InitFits (tags : List BootTag) (image : KernelImage) : Prop :=
  (∀ e ∈ bootEntries tags, e.Usable → 0 < e.len → e.Fits tags image) ∧
    image.physEnd tags ≤ 8 * bitmapBytes tags * 4096 ∧ image.physEnd tags ≤ windowSize

lemma maxAddr_lt (tags : List BootTag) : maxAddr tags < 2 ^ 64 := by
  have hentries : ∀ (es : List MmapEntry) a, a < 2 ^ 64 → es.foldl maxEnd a < 2 ^ 64 := by
    intro es
    induction es with
    | nil => exact fun a ha => ha
    | cons e es ih =>
      intro a ha
      apply ih
      rw [maxEnd]
      split_ifs
      · exact mod_lt _ (by norm_num)
      · exact ha
      · exact ha
  have htags : ∀ (tags : List BootTag) a, a < 2 ^ 64 →
      tags.foldl (fun a tag => tag.entries.foldl maxEnd a) a < 2 ^ 64 := by
    intro tags
    induction tags with
    | nil => exact fun a ha => ha
    | cons tag tags ih =>
      intro a ha
      exact ih _ (hentries tag.entries a ha)
  exact htags tags 0 (by norm_num)

variable {image : KernelImage} {memory : Bitmap} {r : PmmInit}

lemma bitmapBytes_le (tags : List BootTag) : bitmapBytes tags ≤ 2 ^ 49 := by
  have hmax := maxAddr_lt tags
  simp only [bitmapBytes, pageSize]
  omega

lemma KernelImage.physEnd_spec (image : KernelImage) (tags : List BootTag) :
    (0x100000 < image.physEnd tags ∧ image.physEnd tags < 2 ^ 50) ∧
      (image.kernelEnd + bitmapBytes tags + 2 ^ 64 - kernelOffset) % 2 ^ 64 =
        image.physEnd tags := by
  have habove := image.above
  have hlt := image.lt
  have hoffset : kernelOffset = 0xFFFFFFFF80000000 := rfl
  have hstart : kernelStart = kernelOffset + 0x100000 := rfl
  have hsize := bitmapBytes_le tags
  have hend : image.physEnd tags = image.kernelEnd - kernelOffset + bitmapBytes tags := rfl
  omega

lemma KernelImage.mapped_iff (image : KernelImage) (tags : List BootTag) :
    image.kernelEnd + bitmapBytes tags ≤ kernelOffset + windowSize ↔
      image.physEnd tags ≤ windowSize := by
  have habove : kernelOffset ≤ image.kernelEnd := (le_add_right _ _).trans image.above.le
  rw [KernelImage.physEnd, ← Nat.sub_add_comm habove, Nat.sub_le_iff_le_add']

/-- The pages of the last loop. -/
lemma KernelImage.mem_pages (image : KernelImage) (tags : List BootTag) (q : Nat) :
    q ∈ List.range' (0x100000 / 4096) (pagesOf (image.physEnd tags - 0x100000)) ↔
      image.Holds tags q := by
  rw [mem_range'_1, KernelImage.Holds, pagesOf]
  omega

lemma bitmapTest_memset (memory : Nat → UInt8) {size : Nat} (hq : q < 8 * size) :
    bitmapTest (fun k => if k < size then 0xFF else memory k) q = true := by
  have hbits : ∀ j < 8, (255 : UInt8).toNat.testBit j = true := by decide
  rw [bitmapTest_eq, if_pos (by omega)]
  exact hbits _ (mod_lt _ (by norm_num))

/-- What `init_PMM` leaves when it returns. -/
structure Initialized (r : PmmInit) (tags : List BootTag) (image : KernelImage) : Prop where
  total : r.totalPages = maxAddr tags / pageSize
  size : r.bitmapSize = bitmapBytes tags
  kernelStart : r.physKernelStart = 0x100000
  kernelEnd : r.physKernelEnd = image.physEnd tags
  mapped : image.physEnd tags ≤ windowSize
  ends : ∀ e ∈ bootEntries tags, e.Usable → e.Ends
  free : ∀ p < 8 * bitmapBytes tags, bitmapTest r.marking.bitmap p = false ↔
    (∃ e ∈ bootEntries tags, e.Frees p) ∧ ¬ image.Holds tags p
  touched : ∀ p, p ∈ r.marking.touched ↔ (∃ e ∈ bootEntries tags, e.Frees p) ∨ image.Holds tags p

lemma initPMM_some (hwrap : ∀ e ∈ bootEntries tags, e.NoWrap)
    (h : initPMM fuel tags image memory = some r) : Initialized r tags image := by
  simp only [initPMM, Option.bind_eq_bind, Option.bind_eq_some_iff] at h
  obtain ⟨_, hguard, freed, hfreed, marking, hmarking, hr⟩ := h
  rw [freeAvailable_eq] at hfreed
  obtain ⟨hends, hbit, htouched⟩ := freeEntries_some hwrap hfreed
  have hstart : (DestinX.Pmm.kernelStart + 2 ^ 64 - kernelOffset) % 2 ^ 64 = 0x100000 := by decide
  rw [hstart, ← bitmapBytes, (image.physEnd_spec tags).2] at hmarking
  obtain ⟨-, hmarking⟩ := pageLoop_some (by norm_num) hmarking
  have hmarked := foldl_set
    (List.range' (0x100000 / 4096) (pagesOf (image.physEnd tags - 0x100000))) freed
  cases hr
  constructor
  · rfl
  · rfl
  · exact hstart
  · exact (image.physEnd_spec tags).2
  · by_contra hbehind
    exact absurd (hguard.symm.trans (if_neg (mt (image.mapped_iff tags).mp hbehind))) (by simp)
  · exact hends
  · intro p hp
    have hset := bitmapTest_memset memory hp
    rw [hmarking, (hmarked p).1, image.mem_pages, hbit]
    rw [← bitmapBytes, hset, Bool.true_eq_false, false_or]
  · intro p
    rw [hmarking, (hmarked p).2, image.mem_pages, htouched]
    simp

lemma initPMM_ends (hwrap : ∀ e ∈ bootEntries tags, e.NoWrap)
    (hends : ∀ e ∈ bootEntries tags, e.Usable → e.Ends)
    (hmapped : image.physEnd tags ≤ windowSize) (memory : Bitmap) :
    ∃ fuel r, initPMM fuel tags image memory = some r := by
  -- no loop has more rounds than there are pages
  have hfuel : ∀ e ∈ bootEntries tags, pagesOf e.len < 2 ^ 53 := by
    intro e he
    have hlen : e.addr + e.len < 2 ^ 64 := hwrap e he
    simp only [pagesOf]
    omega
  obtain ⟨freed, hfreed⟩ := freeEntries_ends (s := ⟨fun k =>
    if k < (maxAddr tags / pageSize + 7) / 8 then 0xFF else memory k, []⟩) hwrap hends hfuel
  rw [← freeAvailable_eq] at hfreed
  obtain ⟨hend, heq⟩ := image.physEnd_spec tags
  have hloop : ∃ marking, pageLoop Marking.set (2 ^ 53) 0x100000 (image.physEnd tags) freed =
      some marking := by
    apply pageLoop_ends
    · simp only [pagesOf]
      omega
    · simp only [pagesOf]
      omega
  obtain ⟨marking, hmarking⟩ := hloop
  have hcall : ∃ r, initPMM (2 ^ 53) tags image memory = some r := by
    simp only [initPMM, Option.bind_eq_bind, Option.bind_eq_some_iff]
    refine ⟨_, (), if_pos ((image.mapped_iff tags).mpr hmapped), freed, hfreed, marking, ?_, rfl⟩
    rw [← bitmapBytes, heq]
    exact hmarking
  exact ⟨2 ^ 53, hcall⟩

lemma totalPages_le (tags : List BootTag) : maxAddr tags / pageSize ≤ 8 * bitmapBytes tags := by
  simp only [bitmapBytes]
  omega

/-- A page between the first and the last page of an entry. -/
lemma wholePage_of_inner (he : e ∈ es) (hfrees : e.Frees p) (hfirst : p ≠ e.addr / 4096)
    (hlast : p ≠ e.addr / 4096 + pagesOf e.len - 1) : WholePage es p := by
  obtain ⟨husable, hle, hlt⟩ := hfrees
  intro b hb hb'
  refine ⟨e, he, husable, ?_⟩
  simp only [pagesOf] at hlt hlast
  omega

lemma Initialized.fits (h : Initialized r tags image) (hsound : r.Sound (bootEntries tags)) :
    InitFits tags image := by
  obtain ⟨hfree, htouched⟩ := hsound
  rw [h.total] at hfree htouched
  rw [h.size] at htouched
  have htotal := totalPages_le tags
  have hinside : ∀ p, p ∈ r.marking.touched → p < 8 * bitmapBytes tags := by
    intro p hp
    by_cases hlt : p < maxAddr tags / pageSize
    · omega
    · have := htouched p hp (not_lt.mp hlt)
      omega
  refine ⟨?_, ?_, h.mapped⟩
  · intro e he husable hlen
    have hpages : 1 ≤ pagesOf e.len := by
      simp only [pagesOf]
      omega
    refine ⟨h.ends e he husable, fun p hp hlt => ?_, ?_⟩
    · by_cases hkernel : image.Holds tags p
      · exact .inr hkernel
      · have hfrees : e.Frees p := ⟨husable, by omega, by omega⟩
        have hclear := (h.free p (by omega)).mpr ⟨⟨e, he, hfrees⟩, hkernel⟩
        exact .inl (hfree p hlt hclear).1
    · have hlast : e.Frees (e.addr / 4096 + pagesOf e.len - 1) := ⟨husable, by omega, by omega⟩
      have := hinside _ ((h.touched _).mpr (.inl ⟨e, he, hlast⟩))
      omega
  · have hend := (image.physEnd_spec tags).1
    have hlast : image.Holds tags ((image.physEnd tags - 1) / 4096) := by
      simp only [KernelImage.Holds]
      omega
    have := hinside _ ((h.touched _).mpr (.inr hlast))
    omega

lemma Initialized.sound (h : Initialized r tags image) (hfits : InitFits tags image) :
    r.Sound (bootEntries tags) := by
  obtain ⟨hentries, hkernel, -⟩ := hfits
  have htotal := totalPages_le tags
  have hfrees : ∀ e ∈ bootEntries tags, ∀ p, e.Frees p → e.Fits tags image := by
    intro e he p hp
    apply hentries e he hp.1
    have := hp.2
    simp only [pagesOf] at this
    omega
  constructor
  · intro p hp hclear
    rw [h.total] at hp
    obtain ⟨⟨e, he, hfree⟩, hheld⟩ := (h.free p (by omega)).mp hclear
    constructor
    · by_cases hedge : p = e.addr / 4096 ∨ p = e.addr / 4096 + pagesOf e.len - 1
      · exact ((hfrees e he p hfree).edges p hedge hp).resolve_right hheld
      · rw [not_or] at hedge
        exact wholePage_of_inner he hfree hedge.1 hedge.2
    · intro b hb hb'
      rw [h.kernelStart, h.kernelEnd]
      simp only [KernelImage.Holds] at hheld
      omega
  · intro p hp _
    rw [h.size]
    rcases (h.touched p).mp hp with ⟨e, he, hfree⟩ | hheld
    · have hin := (hfrees e he p hfree).inside
      have := hfree.2
      omega
    · simp only [KernelImage.Holds] at hheld
      omega

lemma InitSound.fits (hwrap : ∀ e ∈ bootEntries tags, e.NoWrap)
    (h : InitSound tags image memory) : InitFits tags image := by
  obtain ⟨fuel, r, hcall, hsound⟩ := h
  exact (initPMM_some hwrap hcall).fits hsound

/-- `init_PMM` returns with only usable pages free and nothing written behind the bitmap exactly
when every entry of the memory map fits. -/
theorem init_pmm_sound_iff (hwrap : ∀ e ∈ bootEntries tags, e.NoWrap) :
    InitSound tags image memory ↔ InitFits tags image := by
  constructor
  · exact InitSound.fits hwrap
  · intro hfits
    have hends : ∀ e ∈ bootEntries tags, e.Usable → e.Ends := by
      intro e he husable
      by_cases hlen : e.len = 0
      · exact .inl hlen
      · exact (hfits.1 e he husable (pos_of_ne_zero hlen)).ends
    obtain ⟨fuel, r, hcall⟩ := initPMM_ends hwrap hends hfits.2.2 memory
    exact ⟨fuel, r, hcall, (initPMM_some hwrap hcall).sound hfits⟩

/-! ### Memory maps with unaligned entries -/

/-- An image of 1 MiB. -/
def smallImage : KernelImage := ⟨kernelOffset + 0x200000, by decide, by decide⟩

/-- 7 MiB of memory from 1 MiB on. -/
def wholeMap : List BootTag := [.other, .mmap [⟨0x100000, 0x700000, 1⟩]]

/-- The memory ends in the middle of a page, and there is more memory behind a hole. -/
def holeMap : List BootTag := [.mmap [⟨0x100000, 0x500800, 1⟩, ⟨0x700000, 0x100000, 1⟩]]

/-- The memory ends in the middle of a page behind a multiple of eight pages. -/
def oddMap : List BootTag := [.mmap [⟨0x100000, 0x700800, 1⟩]]

theorem init_pmm_sound_whole : InitSound wholeMap smallImage fun _ => 0 := by
  have hbytes : bitmapBytes wholeMap = 256 := by decide
  apply (init_pmm_sound_iff (by decide)).mpr
  refine ⟨?_, by decide, by decide⟩
  · intro e he _ _
    obtain rfl := mem_singleton.mp he
    refine ⟨.inr (by decide), fun p hp _ => .inl ?_, by rw [hbytes]; decide⟩
    have hp : p = 256 ∨ p = 2047 := hp
    intro b hb hb'
    refine ⟨_, mem_cons_self, ⟨rfl, le_rfl⟩, ?_⟩
    dsimp only
    omega

/-- In the first map half of the page at `0x600000` is not memory and is freed with the rest. In the
second the bit of the last page lies behind the bitmap. -/
theorem init_pmm_unsound : (∀ e ∈ bootEntries holeMap, e.NoWrap) ∧
    (∀ e ∈ bootEntries oddMap, e.NoWrap) ∧
    ¬ InitSound holeMap smallImage (fun _ => 0) ∧ ¬ InitSound oddMap smallImage (fun _ => 0) := by
  refine ⟨by decide, by decide, fun h => ?_, fun h => ?_⟩
  · obtain ⟨hfits, -⟩ := h.fits (by decide)
    have hedge := (hfits ⟨0x100000, 0x500800, 1⟩ mem_cons_self (by decide) (by decide)).edges
      0x600 (.inr (by decide)) (by decide)
    rcases hedge with hwhole | hheld
    · obtain ⟨e, he, -, hle, hlt⟩ := hwhole 0x600FFF (by norm_num) (by norm_num)
      have hout : ∀ e ∈ bootEntries holeMap, 0x600FFF < e.addr ∨ e.addr + e.len ≤ 0x600FFF := by
        decide
      have := hout e he
      omega
    · exact absurd hheld.2 (by decide)
  · obtain ⟨hfits, -⟩ := h.fits (by decide)
    have hinside := (hfits ⟨0x100000, 0x700800, 1⟩ mem_cons_self (by decide) (by decide)).inside
    exact absurd hinside (by decide)

end DestinX.Pmm
