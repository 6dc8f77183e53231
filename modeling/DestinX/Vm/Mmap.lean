import DestinX.Vm.Areas
import DestinX.Base.Bits
import DestinX.Base.Runs

/-!
# `mmap` and `munmap`

The calls of `mm/mmap.c` on the list of one process. `mmap` rounds the size up with an addition
that can wrap around, and asks nowhere whether the area fits below the others: a size for which
there is no room gives an area that begins below address 0.
-/

namespace DestinX.Vm

open Base Fs Function List Option Nat

def mmapStart : Nat := 0x700000000000

def mapShared : Nat := 0x1
def mapPrivate : Nat := 0x2
def mapFixed : Nat := 0x10
def mapAnonymous : Nat := 0x20

def einval : Nat := 22
def enomem : Nat := 12

/-- An error number as the system call returns it. -/
def errno (e : Nat) : Nat := sub64 0 e

/-- The arguments of `mmap` that it uses. -/
structure MmapCall where
  (size prot flags fd offset : Nat)
  deriving DecidableEq, Repr

/-- `(size + PAGE_SIZE_4KB - 1) & PAGE_MASK_4KB` -/
def roundUp (size : Nat) : Nat := pageStart (sub64 (add64 size 4096) 1)

def MmapCall.Refused (call : MmapCall) : Prop :=
  call.flags &&& mapFixed ≠ 0 ∨ call.size = 0 ∨ call.offset &&& 0xFFF ≠ 0

instance (call : MmapCall) : Decidable call.Refused := inferInstanceAs (Decidable (_ ∨ _))

/-- The fields that `mmap` assigns in the block from `kmalloc`. The others keep what
the block holds, and so do `file` and `file_pgoff` without a file. -/
def MmapCall.fill (call : MmapCall) (file : Option Nat) (block : VmArea) : VmArea :=
  { block with
    size := roundUp call.size
    prot := call.prot
    flags := call.flags
    file := file.getD block.file
    filePgoff := if file.isSome then call.offset else block.filePgoff }

/-- `current_thread->process->fd_table[fd]`, unless the mapping is anonymous. -/
def MmapCall.lookup (call : MmapCall) (fdTable : Nat → Option Nat) : Option Nat :=
  if call.flags &&& mapAnonymous = 0 then fdTable call.fd else none

/-- `mmap`, with the block that `kmalloc` returns. -/
def mmap (fuel : Nat) (s : AreaList) (fdTable : Nat → Option Nat) (block : Option (Nat × VmArea))
    (call : MmapCall) : Option (AreaList × Nat) :=
  if call.Refused then some (s, errno einval)
  else
    match block with
    | none => some (s, errno enomem)
    | some (i, b) =>
      (addToList mmapStart fuel (s.assign i fun _ => call.fill (call.lookup fdTable) b) i).map
        fun s' => (s', (s'.area i).lower)

/-- The loop of `munmap`. -/
def findArea (s : AreaList) (ptr : Nat) : Nat → Option Nat → Option (Option Nat)
  | 0, _ => none
  | _ + 1, none => some none
  | fuel + 1, some current =>
    if (s.area current).lower = ptr then some (some current)
    else findArea s ptr fuel (s.next current)

/-- What `munmap` does to the list. -/
def munmapList (fuel : Nat) (s : AreaList) (ptr : Nat) : Option AreaList :=
  (findArea s ptr fuel s.head).map fun found =>
    match found with
    | some i => removeFromList s i
    | none => s

/-! ## Runs -/

/-- The list, with the size that was requested for each area. -/
structure MmapState where
  areas : AreaList
  asked : Nat → Nat

inductive MmapAction where
  | mmap (fdTable : Nat → Option Nat) (block : Option (Nat × VmArea)) (call : MmapCall) (ret : Nat)
  | munmap (ptr : Nat)

/-- The block is one that no area of the list occupies. -/
def Fresh (s : AreaList) (block : Option (Nat × VmArea)) : Prop :=
  ∀ i b, block = some (i, b) → ¬ Reaches s.next s.head i

def MmapState.ask (st : MmapState) (block : Option (Nat × VmArea)) (call : MmapCall) : Nat → Nat :=
  if call.Refused then st.asked
  else
    match block with
    | none => st.asked
    | some (i, _) => update st.asked i call.size

inductive MmapStep : MmapState → MmapAction → MmapState → Prop
  | mmap {st : MmapState} {fdTable : Nat → Option Nat} {block : Option (Nat × VmArea)}
      {call : MmapCall} {fuel ret : Nat} {areas : AreaList} (hsize : call.size < 2 ^ 64)
      (hfresh : Fresh st.areas block)
      (hcall : Vm.mmap fuel st.areas fdTable block call = some (areas, ret)) :
      MmapStep st (.mmap fdTable block call ret) ⟨areas, st.ask block call⟩
  | munmap {st : MmapState} {ptr fuel : Nat} {areas : AreaList}
      (hcall : munmapList fuel st.areas ptr = some areas) :
      MmapStep st (.munmap ptr) ⟨areas, st.asked⟩

def mmapMachine : Machine MmapState MmapAction where
  start st := st.areas.head = none
  step := MmapStep

/-- The list is doubly linked and in descending order, no area wraps around, and each
one has the size that was requested for it. -/
def AreasSound (st : MmapState) : Prop :=
  ∃ l, Sorted mmapStart st.areas l ∧ ∀ p ∈ l, st.asked p ≤ (st.areas.area p).size

/-- The call returns the lower end of the area that it has put on the list, or an error
and leaves everything as it is; `munmap` takes the first area that begins at the address
from the list. -/
def Answered (st : MmapState) : MmapAction → MmapState → Prop
  | .mmap _ _ _ ret, st' =>
    (st' = st ∧ (ret = errno einval ∨ ret = errno enomem)) ∨
      ∃ i l₁ l₂, Chain st.areas.next st.areas.head (l₁ ++ l₂) ∧
        Chain st'.areas.next st'.areas.head (l₁ ++ i :: l₂) ∧ ret = (st'.areas.area i).low
  | .munmap ptr, st' =>
    ∃ l, Chain st.areas.next st.areas.head l ∧
      Chain st'.areas.next st'.areas.head (l.eraseP fun p => (st.areas.area p).low = ptr)

/-- The rounded size does not wrap around, and there is room for it. -/
def SizeFits (s : AreaList) (block : Option (Nat × VmArea)) (call : MmapCall) : Prop :=
  call.Refused ∨ block = none ∨ (call.size ≤ 2 ^ 64 - 4096 ∧ ∃ l, Chain s.next s.head l ∧
      s.Room mmapStart (roundUp call.size) l)

def Fits (st : MmapState) : MmapAction → Prop
  | .mmap _ block call _ => SizeFits st.areas block call
  | .munmap _ => True

/-- Every call returns. -/
def CallsReturn (s : AreaList) : Prop :=
  (∀ fdTable block call, call.size < 2 ^ 64 → Fresh s block →
      ∃ fuel r, mmap fuel s fdTable block call = some r) ∧
    ∀ ptr, ∃ fuel s', munmapList fuel s ptr = some s'

variable {st st' : MmapState} {s s' : AreaList} {fdTable : Nat → Option Nat}
  {block : Option (Nat × VmArea)} {call : MmapCall} {fuel k size ptr i ret start : Nat}
  {b : VmArea} {h : Option Nat} {l l₁ l₂ : List Nat}

/-! ## Sizes -/

lemma roundUp_eq (size : Nat) : roundUp size = (size + 4095) % 2 ^ 64 / 4096 * 4096 := by
  have heq : sub64 (add64 size 4096) 1 = (size + 4095) % 2 ^ 64 := by
    simp only [sub64, add64]
    omega
  rw [roundUp, heq]
  exact and_high_mask (n := 64) (k := 12) (mod_lt _ (by norm_num)) (by norm_num)

lemma roundUp_lt (size : Nat) : roundUp size < 2 ^ 64 := by
  rw [roundUp_eq]
  omega

lemma le_roundUp (hsize : size ≤ 2 ^ 64 - 4096) : size ≤ roundUp size := by
  rw [roundUp_eq]
  omega

lemma roundUp_wrap (hsize : size < 2 ^ 64) (hbig : 2 ^ 64 - 4096 < size) : roundUp size = 0 := by
  rw [roundUp_eq]
  omega

/-! ## `munmap` -/

lemma findArea_eq_search :
    findArea s ptr fuel h = searchArea s (fun a => a.lower = ptr) fuel h := by
  induction fuel generalizing h with
  | zero => rfl
  | succ fuel ih =>
    cases h with
    | none => rfl
    | some d => simp only [findArea, searchArea, ih, decide_eq_true_eq]

/-- The list without the first area that begins at the address. -/
lemma munmapList_spec (hs : Sorted mmapStart s l) (hcall : munmapList fuel s ptr = some s') :
    Sorted mmapStart s' (l.eraseP fun p => (s.area p).low = ptr) ∧
      ∀ p, (s'.area p).unlinked = (s.area p).unlinked := by
  obtain ⟨found, hfind, rfl⟩ := map_eq_some_iff.mp hcall
  rw [findArea_eq_search] at hfind
  have hfind' := searchArea_eq (fun a => a.lower = ptr) hs.links.chain (lt_succ_self _)
  have hlow : ∀ p ∈ l, (s.area p).lower = (s.area p).low := fun p hp =>
    (hs.placed p hp).lower_eq (by norm_num [mmapStart])
  obtain rfl := searchArea_unique hfind' hfind
  cases hfound : l.find? fun p => (s.area p).lower = ptr with
  | none =>
    have hnone : ∀ p ∈ l, ¬ (decide ((s.area p).low = ptr) = true) := by
      intro p hp
      rw [← hlow p hp]
      exact find?_eq_none.mp hfound p hp
    rw [eraseP_of_forall_not hnone]
    exact ⟨hs, fun p => rfl⟩
  | some i =>
    obtain ⟨hi, l₁, l₂, rfl, hbefore⟩ := find?_eq_some_iff_append.mp hfound
    have hi' : decide ((s.area i).low = ptr) = true := by
      rw [← hlow i (by simp)]
      exact hi
    have hbefore' : ∀ p ∈ l₁, ¬ (decide ((s.area p).low = ptr) = true) := by
      intro p hp
      rw [← hlow p (by simp [hp])]
      simpa using hbefore p hp
    rw [eraseP_append_right _ hbefore',
      eraseP_cons_of_pos (p := fun p => decide ((s.area p).low = ptr)) hi']
    exact ⟨hs.remove, removeFromList_unlinked s i⟩

lemma exists_munmapList (hs : Sorted mmapStart s l) (ptr : Nat) :
    ∃ fuel s', munmapList fuel s ptr = some s' := by
  have hfind := searchArea_eq (fun a => a.lower = ptr) hs.links.chain (lt_succ_self _)
  exact ⟨_, _, map_eq_some_iff.mpr ⟨_, findArea_eq_search.trans hfind, rfl⟩⟩

/-! ## `mmap` -/

lemma findGap_mono {n c : Nat} {r : Nat × Option Nat} :
    findGap s n fuel c h = some r → findGap s n (fuel + k) c h = some r := by
  induction fuel generalizing c h with
  | zero => exact fun hr => nomatch hr
  | succ fuel ih =>
    intro hr
    rw [add_right_comm]
    cases h with
    | none => exact hr
    | some d =>
      rw [findGap] at hr ⊢
      split_ifs at hr ⊢ with hgap
      · exact hr
      · exact ih hr

lemma mmap_refused (href : call.Refused) :
    mmap fuel s fdTable block call = some (s, errno einval) := if_pos href

lemma mmap_no_block (href : ¬ call.Refused) :
    mmap fuel s fdTable none call = some (s, errno enomem) := if_neg href

lemma mmap_block (href : ¬ call.Refused) : mmap fuel s fdTable (some (i, b)) call =
      (addToList mmapStart fuel (s.assign i fun _ => call.fill (call.lookup fdTable) b) i).map
        fun s' => (s', (s'.area i).lower) := if_neg href

lemma addToList_mono (hadd : addToList start fuel s i = some s') :
    addToList start (fuel + k) s i = some s' := by
  rw [addToList] at hadd ⊢
  cases hhead : s.head with
  | none => simpa only [hhead] using hadd
  | some c =>
    simp only [hhead] at hadd ⊢
    obtain ⟨gap, hgap, hins⟩ := map_eq_some_iff.mp hadd
    exact map_eq_some_iff.mpr ⟨gap, findGap_mono hgap, hins⟩

lemma room_congr {n : Nat} (harea : ∀ p ∈ l, s'.area p = s.area p) :
    (s'.Room start n l ↔ s.Room start n l) ∧ s'.place start n l = s.place start n l := by
  induction l with
  | nil => exact ⟨Iff.rfl, rfl⟩
  | cons p l ih =>
    obtain ⟨hroom, hplace⟩ := ih fun q hq => harea q (mem_cons_of_mem p hq)
    cases l with
    | nil =>
      simp only [AreaList.Room, AreaList.place]
      rw [harea p (by simp)]
      exact ⟨Iff.rfl, rfl⟩
    | cons q l =>
      simp only [AreaList.Room, AreaList.place]
      rw [harea p (by simp), harea q (by simp), hroom, hplace]
      exact ⟨Iff.rfl, rfl⟩

lemma assign_area_of_not_mem {f : VmArea → VmArea} (hi : i ∉ l) :
    ∀ p ∈ l, (s.assign i f).area p = s.area p := by
  intro p hp
  rw [assign_area, if_neg]
  rintro rfl
  exact hi hp

/-- A call that is not refused puts its block on the list. The area does not wrap
around exactly when there is room for it. -/
lemma mmap_spec (hs : Sorted mmapStart s l) (hi : i ∉ l) (href : ¬ call.Refused)
    (hcall : mmap fuel s fdTable (some (i, b)) call = some (s', ret)) : ∃ p l₁ l₂, l = l₁ ++ l₂ ∧
      Inserted (s.assign i fun _ => call.fill (call.lookup fdTable) b) s' i p l₁ l₂ ∧
      ret = (s'.area i).lower ∧ (s.Room mmapStart (roundUp call.size) l ↔ roundUp call.size < p) ∧
      (s.Room mmapStart (roundUp call.size) l → p = s.place mmapStart (roundUp call.size) l) ∧
      (s.Room mmapStart (roundUp call.size) l → 0 < roundUp call.size →
        Sorted mmapStart s' (l₁ ++ i :: l₂)) := by
  have harea : ∀ p ∈ l, (s.assign i fun _ => call.fill (call.lookup fdTable) b).area p = s.area p :=
    assign_area_of_not_mem hi
  have hsize : ((s.assign i fun _ => call.fill (call.lookup fdTable) b).area i).size =
      roundUp call.size := by
    rw [assign_area, if_pos rfl]
    rfl
  have hs1 := hs.congr (assign_head s i _) harea
  obtain ⟨s1, p, l₁, l₂, hadd, hl, hins, hroom, hplace, hsorted⟩ :=
    addToList_spec hs1 (by norm_num [mmapStart]) hi (hsize ▸ roundUp_lt call.size)
      (le_add_left l.length fuel)
  rw [hsize, (room_congr harea).1] at hroom hplace hsorted
  rw [(room_congr harea).2] at hplace
  rw [mmap_block href] at hcall
  obtain ⟨s2, hadd2, hr⟩ := map_eq_some_iff.mp hcall
  obtain rfl : s1 = s2 := some.inj (hadd.symm.trans (addToList_mono hadd2))
  cases hr
  exact ⟨p, l₁, l₂, hl, hins, rfl, hroom, hplace, hsorted⟩

lemma exists_mmap (hs : Sorted mmapStart s l) (fdTable : Nat → Option Nat)
    (hfresh : Fresh s block) :
    ∃ fuel r, mmap fuel s fdTable block call = some r := by
  by_cases href : call.Refused
  · exact ⟨0, _, mmap_refused href⟩
  cases block with
  | none => exact ⟨0, _, mmap_no_block href⟩
  | some block =>
    obtain ⟨i, b⟩ := block
    have hi : i ∉ l := fun hm => hfresh i b rfl (hs.links.chain.reaches_iff.mpr hm)
    have hsize :
        ((s.assign i fun _ => call.fill (call.lookup fdTable) b).area i).size < 2 ^ 64 := by
      rw [assign_area, if_pos rfl]
      exact roundUp_lt call.size
    obtain ⟨s', -, -, -, hadd, -⟩ := addToList_spec
      (hs.congr (assign_head s i _) (assign_area_of_not_mem hi)) (by norm_num [mmapStart])
      hi hsize le_rfl
    exact ⟨l.length, _, (mmap_block href).trans (map_eq_some_iff.mpr ⟨s', hadd, rfl⟩)⟩

/-! ## Every step -/

lemma AreasSound.callsReturn (h : AreasSound st) : CallsReturn st.areas := by
  obtain ⟨l, hs, -⟩ := h
  exact ⟨fun fdTable block call _ hfresh => exists_mmap hs fdTable hfresh, exists_munmapList hs⟩

lemma step_munmap (h : AreasSound st) (hcall : munmapList fuel st.areas ptr = some s') :
    AreasSound ⟨s', st.asked⟩ ∧ Answered st (.munmap ptr) ⟨s', st.asked⟩ := by
  obtain ⟨l, hs, hasked⟩ := h
  obtain ⟨hs', hsame⟩ := munmapList_spec hs hcall
  refine ⟨⟨_, hs', fun p hp => ?_⟩, l, hs.links.chain, hs'.links.chain⟩
  have hsize := VmArea.size_of_unlinked (hsame p)
  exact hsize ▸ hasked p (mem_of_mem_eraseP hp)

lemma step_mmap (h : AreasSound st) (hsize : call.size < 2 ^ 64) (hfresh : Fresh st.areas block)
    (hcall : mmap fuel st.areas fdTable block call = some (s', ret)) :
    (AreasSound ⟨s', st.ask block call⟩ ∧
        Answered st (.mmap fdTable block call ret) ⟨s', st.ask block call⟩) ↔
      Fits st (.mmap fdTable block call ret) := by
  by_cases href : call.Refused
  · have hask : st.ask block call = st.asked := if_pos href
    rw [mmap_refused href] at hcall
    cases hcall
    rw [hask]
    exact iff_of_true ⟨h, .inl ⟨rfl, .inl rfl⟩⟩ (.inl href)
  cases block with
  | none =>
    have hask : st.ask none call = st.asked := if_neg href
    rw [mmap_no_block href] at hcall
    cases hcall
    rw [hask]
    exact iff_of_true ⟨h, .inl ⟨rfl, .inr rfl⟩⟩ (.inr (.inl rfl))
  | some block =>
    obtain ⟨i, b⟩ := block
    obtain ⟨l, hs, hasked⟩ := h
    have hi : i ∉ l := fun hm => hfresh i b rfl (hs.links.chain.reaches_iff.mpr hm)
    have hask : st.ask (some (i, b)) call = update st.asked i call.size := if_neg href
    have hnz : 0 < call.size := pos_of_ne_zero fun hz => href (.inr (.inl hz))
    obtain ⟨p, l₁, l₂, rfl, hins, rfl, hroom, -, hsorted⟩ := mmap_spec hs hi href hcall
    have hself : (s'.area i).size = roundUp call.size := by
      rw [VmArea.size_of_unlinked hins.self, assign_area, if_pos rfl]
      rfl
    rw [hask]
    constructor
    · rintro ⟨⟨l', hs', hasked'⟩, -⟩
      -- the new area is on the list, so that it is placed and large enough
      obtain rfl := hs'.links.chain.unique hins.links.chain
      have hlarge := hasked' i (by simp)
      have hplaced := (hs'.placed i (by simp)).size_lt
      simp only [update_self] at hlarge
      rw [hself] at hlarge hplaced
      rw [VmArea.base_of_unlinked hins.self] at hplaced
      refine .inr (.inr ⟨?_, l₁ ++ l₂, hs.links.chain, hroom.mpr hplaced⟩)
      by_contra hbig
      rw [roundUp_wrap hsize (by omega)] at hlarge
      omega
    · intro hfits
      obtain ⟨hle, l', hl', hroom'⟩ := (hfits.resolve_left href).resolve_left (by simp)
      rw [hl'.unique hs.links.chain] at hroom'
      have hle' := le_roundUp hle
      have hs' := hsorted hroom' (by omega)
      refine ⟨⟨_, hs', fun q hq => ?_⟩, .inr ⟨i, l₁, l₂, hs.links.chain, hs'.links.chain, ?_⟩⟩
      · by_cases hqi : q = i
        · subst hqi
          simp only [update_self]
          rw [hself]
          exact hle'
        · have hq' : q ∈ l₁ ++ l₂ := by simpa [hqi] using hq
          simp only [update_of_ne hqi]
          rw [VmArea.size_of_unlinked (hins.others q hqi), assign_area, if_neg hqi]
          exact hasked q hq'
      · exact (hs'.placed i (by simp)).lower_eq (by norm_num [mmapStart])

lemma MmapStep.sound_iff {a : MmapAction} (h : AreasSound st) (hstep : MmapStep st a st') :
    (AreasSound st' ∧ Answered st a st') ↔ Fits st a := by
  cases hstep with
  | mmap hsize hfresh hcall => exact step_mmap h hsize hfresh hcall
  | munmap hcall => exact iff_of_true (step_munmap h hcall) trivial

/-- The areas are sound in every run in which each size fits. Then every call returns,
and the next one keeps the list sound and answers as it should exactly when its size
fits as well. -/
theorem mmap_areas_sound_iff (run : mmapMachine.Reached Fits st) :
    AreasSound st ∧ CallsReturn st.areas ∧
      ∀ a st', MmapStep st a st' → ((AreasSound st' ∧ Answered st a st') ↔ Fits st a) := by
  have hsound : AreasSound st := by
    refine run.invariant (fun s hhead => ?_) (fun s a s' h hfits hstep => ?_)
    · exact ⟨[], ⟨⟨hhead, trivial⟩, by simp, List.Pairwise.nil⟩, by simp⟩
    · exact (hstep.sound_iff h).mpr hfits |>.1
  exact ⟨hsound, hsound.callsReturn, fun a st' hstep => hstep.sound_iff hsound⟩

/-- A block as it comes from `kmalloc`. -/
def blankArea : VmArea := ⟨0, 0, 0, 0, 0, 0, none, none⟩

def noAreas : MmapState := ⟨⟨fun _ => blankArea, none⟩, fun _ => 0⟩

/-- An anonymous mapping. -/
def anonymous (size : Nat) : MmapCall := ⟨size, 3, mapPrivate + mapAnonymous, 0, 0⟩

/-- The first area of a process, in the block at address 1. -/
def firstArea (size : Nat) : AreaList where
  area := update (fun _ => blankArea) 1
    { (anonymous size).fill none blankArea with base := mmapStart }
  head := some 1

lemma mmap_first (hsize : size ≠ 0) :
    mmap 0 noAreas.areas (fun _ => none) (some (1, blankArea)) (anonymous size) =
      some (firstArea size, ((firstArea size).area 1).lower) := by
  have href : ¬ (anonymous size).Refused := by
    simp [MmapCall.Refused, anonymous, mapPrivate, mapAnonymous, mapFixed, hsize]
  have hlookup : (anonymous size).lookup (fun _ => none) = none := ite_self _
  rw [mmap_block href, hlookup]
  simp only [addToList, noAreas, AreaList.assign, update_idem, update_self]
  rfl

lemma step_first (size : Nat) (hsize : size ≠ 0) (hlt : size < 2 ^ 64) : ∃ ret, MmapStep noAreas
      (.mmap (fun _ => none) (some (1, blankArea)) (anonymous size) ret)
      ⟨firstArea size, noAreas.ask (some (1, blankArea)) (anonymous size)⟩ := by
  refine ⟨_, .mmap hlt ?_ (mmap_first hsize)⟩
  intro i b hb hr
  cases hr

/-- One mapping of two pages. -/
theorem mmap_areas_sound_twoPages :
    ∃ st, mmapMachine.Reached Fits st ∧ st.areas = firstArea 5000 ∧ AreasSound st ∧
      CallsReturn st.areas ∧
      ∀ a st', MmapStep st a st' → ((AreasSound st' ∧ Answered st a st') ↔ Fits st a) := by
  obtain ⟨ret, hstep⟩ := step_first 5000 (by decide) (by decide)
  have hfits : Fits noAreas (.mmap (fun _ => none) (some (1, blankArea)) (anonymous 5000) ret) :=
    .inr (.inr ⟨by decide, [], rfl, show roundUp 5000 < mmapStart by decide⟩)
  have hstart : mmapMachine.start noAreas := rfl
  have run : mmapMachine.Reached Fits _ := .step (.start hstart) hfits hstep
  exact ⟨_, run, rfl, mmap_areas_sound_iff run⟩

/-- A mapping of half the address space begins below address 0. -/
theorem mmap_area_wraps : mmapMachine.start noAreas ∧ ∃ a st, MmapStep noAreas a st ∧
      (st.areas.area 1).size = 2 ^ 63 ∧ (st.areas.area 1).base = mmapStart ∧ ¬ AreasSound st := by
  obtain ⟨ret, hstep⟩ := step_first (2 ^ 63) (by decide) (by decide)
  refine ⟨rfl, _, _, hstep, by decide, rfl, ?_⟩
  rintro ⟨l, hs, -⟩
  have hplaced := hs.placed 1 (hs.links.chain.mem_of_head rfl)
  exact absurd hplaced.size_lt (by decide)

end DestinX.Vm
