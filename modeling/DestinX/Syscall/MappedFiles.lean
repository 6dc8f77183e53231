import DestinX.Syscall.Outcomes
import DestinX.Vm.UserStacks

/-!
# Mapped files and their descriptors

An area that maps a file holds a pointer to the `FILE`, which the fault handler follows. `close`
frees the block whatever refers to it, and an `mmap` of a descriptor without a file leaves the
pointer as it was in the block from `kmalloc`.
-/

namespace DestinX.Syscall

open Base Fs Vm Function List Option

universe u

variable {W : Type u}

/-- The address is that of a `FILE` that `open` has made and `close` has not freed. -/
def IsOpen (s : SysState W) (a : Nat) : Prop := ∃ f, s.files a = some f ∧ f.ops = .dfs

/-- `fd_table[fd]`. Behind the table lies what the memory happens to hold. -/
def SysState.entryAt (s : SysState W) (p : Nat) (behind : Nat → Option Nat) (fd : Nat) :
    Option Nat :=
  if fd < maxFd then s.fdTable p fd else behind fd

/-- The `FILE` that `page_fault_handler` reads for a fault in a mapped area: of a private
mapping the path, of a shared one the inode. -/
def SysState.faultFile (s : SysState W) (fuel p fault : Nat) : Option (Option Nat) :=
  (searchArea (s.areas p) (fun a => a.lower ≤ fault ∧ fault < a.base) fuel (s.areas p).head).map
    fun found => found.bind fun i =>
      let a := (s.areas p).area i
      if a.flags &&& mapAnonymous ≠ 0 then none
      else if a.flags &&& mapPrivate ≠ 0 ∨ a.flags &&& mapShared ≠ 0 then some a.file
      else none

/-! ## Runs -/

inductive MapAction where
  | open (fp : List UInt8) (flags : Nat) (block : Option Nat)
  | close (fd : Nat)
  | mmap (behind : Nat → Option Nat) (block : Option (Nat × VmArea)) (call : MmapCall) (ret : Nat)
  | munmap (ptr : Nat)
  | fault (addr : Nat)

/-- The calls of process `p`. A fault changes pages, the cache and the disk. -/
inductive MapStep (D : Drivers W) : SysState W → Nat × MapAction → SysState W → Prop
  | open {s s' : SysState W} {p flags : Nat} {fp : List UInt8} {block : Option Nat}
      (hfresh : (Call.open fp flags block).Fresh s)
      (hcall : (s.open D p fp flags block).After s s') : MapStep D s (p, .open fp flags block) s'
  | close {s s' : SysState W} {p fd : Nat} (hcall : (s.close p fd).After s s') :
      MapStep D s (p, .close fd) s'
  | mmap {s : SysState W} {p fuel ret : Nat} {behind : Nat → Option Nat}
      {block : Option (Nat × VmArea)} {call : MmapCall} {l : AreaList}
      (hfresh : Fresh (s.areas p) block)
      (hcall : Vm.mmap fuel (s.areas p) (s.entryAt p behind) block call = some (l, ret)) :
      MapStep D s (p, .mmap behind block call ret) { s with areas := update s.areas p l }
  | munmap {s : SysState W} {p fuel ptr : Nat} {l : AreaList}
      (hcall : munmapList fuel (s.areas p) ptr = some l) :
      MapStep D s (p, .munmap ptr) { s with areas := update s.areas p l }
  | fault {s : SysState W} {p addr : Nat} (w : W) :
      MapStep D s (p, .fault addr) { s with world := w }

/-- New processes, without areas. -/
def mapMachine (D : Drivers W) : Machine (SysState W) (Nat × MapAction) where
  start s := (fileMachine D).start s ∧ ∀ p, (s.areas p).head = none
  step := MapStep D

/-- Area `i` is on the list of process `p` and maps a file. -/
def MapsFile (s : SysState W) (p i : Nat) : Prop :=
  Reaches (s.areas p).next (s.areas p).head i ∧ ((s.areas p).area i).flags &&& mapAnonymous = 0

/-- Every area that maps a file points to one that is open, and the handler reads no other. -/
structure MappedLive (s : SysState W) : Prop where
  areas : ∀ p i, MapsFile s p i → IsOpen s ((s.areas p).area i).file
  faults : ∀ fuel p fault a, s.faultFile fuel p fault = some (some a) → IsOpen s a

/-- No area maps the file that is closed, and a descriptor that is mapped has an open file.
Without one, what counts is the pointer that the block happens to hold. -/
def KeepsFiles (s : SysState W) : Nat × MapAction → Prop
  | (p, .close fd) => 3 ≤ fd → fd < maxFd → ∀ a, s.fdTable p fd = some a →
      ∀ q i, MapsFile s q i → ((s.areas q).area i).file ≠ a
  | (p, .mmap behind block call _) => ¬ call.Refused → call.flags &&& mapAnonymous = 0 →
      ∀ i b, block = some (i, b) → IsOpen s ((call.lookup (s.entryAt p behind)).getD b.file)
  | _ => True

variable {D : Drivers W} {s s' : SysState W} {act : Nat × MapAction} {behind : Nat → Option Nat}
  {block : Option (Nat × VmArea)} {b : VmArea} {call : MmapCall} {al : AreaList} {l : List Nat}
  {p q fd a i fuel ptr ret flags : Nat} {fp : List UInt8}

/-! ## One call -/

/-- The file and the flags of an area are not part of its links. -/
lemma file_of_unlinked {x y : VmArea} (h : x.unlinked = y.unlinked) :
    x.file = y.file ∧ x.flags = y.flags :=
  ⟨show x.unlinked.file = y.unlinked.file by rw [h],
    show x.unlinked.flags = y.unlinked.flags by rw [h]⟩

/-- What `mmap` does to the list: nothing, or it adds the area of the block. -/
lemma mmap_areas {fdTable : Nat → Option Nat} {m : AreaList}
    (hd : DList al.next al.prev al.head l) (hfresh : Fresh al block)
    (hcall : Vm.mmap fuel al fdTable block call = some (m, ret)) :
    (m = al ∧ (call.Refused ∨ block = none)) ∨
      ∃ i b l', block = some (i, b) ∧ ¬ call.Refused ∧ DList m.next m.prev m.head l' ∧ i ∈ l' ∧
        (∀ j ∈ l', j = i ∨ j ∈ l) ∧ (m.area i).file = (call.lookup fdTable).getD b.file ∧
        (m.area i).flags = call.flags ∧
        ∀ j, j ≠ i → (m.area j).file = (al.area j).file ∧ (m.area j).flags = (al.area j).flags := by
  by_cases href : call.Refused
  · rw [mmap_refused href] at hcall
    cases hcall
    exact .inl ⟨rfl, .inl href⟩
  cases block with
  | none =>
    rw [mmap_no_block href] at hcall
    cases hcall
    exact .inl ⟨rfl, .inr rfl⟩
  | some block =>
    obtain ⟨i, b⟩ := block
    rw [mmap_block href] at hcall
    obtain ⟨m', hadd, heq⟩ := map_eq_some_iff.mp hcall
    obtain ⟨rfl, -⟩ := Prod.mk.inj heq
    have hi : i ∉ l := fun hi => hfresh i b rfl (hd.chain.reaches_iff.mpr hi)
    obtain ⟨base, -, l1, l2, rfl, hins⟩ := addToList_inserted
      (links_congr hd (assign_head al i _) (assign_area_of_not_mem hi)) hi (by decide) hadd
    obtain ⟨hfile, hflags⟩ := file_of_unlinked hins.self
    refine .inr ⟨i, b, l1 ++ i :: l2, rfl, href, hins.links, by simp, fun j hj => ?_, ?_, ?_,
      fun j hj => ?_⟩
    · simp only [mem_append, mem_cons] at hj ⊢
      tauto
    · rw [hfile, assign_area, if_pos rfl]
      rfl
    · rw [hflags, assign_area, if_pos rfl]
      rfl
    · have hsame := file_of_unlinked (hins.others j hj)
      rwa [assign_area, if_neg hj] at hsame

lemma munmapList_areas {m : AreaList} (hd : DList al.next al.prev al.head l)
    (hcall : munmapList fuel al ptr = some m) :
    ∃ l', DList m.next m.prev m.head l' ∧ (∀ j ∈ l', j ∈ l) ∧
      ∀ j, (m.area j).file = (al.area j).file ∧ (m.area j).flags = (al.area j).flags := by
  obtain ⟨found, hfind, rfl⟩ := map_eq_some_iff.mp hcall
  cases found with
  | none => exact ⟨l, hd, fun j hj => hj, fun j => ⟨rfl, rfl⟩⟩
  | some i =>
    rw [findArea_eq_search] at hfind
    obtain ⟨l1, l2, rfl⟩ := append_of_mem (hd.chain.reaches_iff.mp (searchArea_found hfind).2)
    refine ⟨l1 ++ l2, removeFromList_links hd, fun j hj => ?_, fun j =>
      file_of_unlinked (removeFromList_unlinked al i j)⟩
    simp only [mem_append, mem_cons] at hj ⊢
    tauto

/-! ## Every step -/

/-- The lists are well-formed, and the pointers of their areas are good. -/
structure FilesKept (s : SysState W) : Prop where
  links : ∀ p, ∃ l, DList (s.areas p).next (s.areas p).prev (s.areas p).head l
  live : ∀ p i, MapsFile s p i → IsOpen s ((s.areas p).area i).file

lemma FilesKept.mappedLive (h : FilesKept s) : MappedLive s := by
  refine ⟨h.live, fun fuel p fault a hread => ?_⟩
  obtain ⟨found, hfound, hbind⟩ := map_eq_some_iff.mp hread
  obtain ⟨i, rfl, hfile⟩ := bind_eq_some_iff.mp hbind
  dsimp only at hfile
  split_ifs at hfile with hanon hkind
  cases hfile
  exact h.live p i ⟨(searchArea_found hfound).2, not_not.mp hanon⟩

/-- A call that leaves the areas alone and the open files open. -/
lemma FilesKept.files (h : FilesKept s) (hareas : s'.areas = s.areas)
    (hopen : ∀ p i, MapsFile s p i → IsOpen s ((s.areas p).area i).file →
      IsOpen s' ((s.areas p).area i).file) : FilesKept s' := by
  refine ⟨fun p => hareas ▸ h.links p, fun p i hi => ?_⟩
  rw [MapsFile, hareas] at hi
  rw [hareas]
  exact hopen p i hi (h.live p i hi)

lemma FilesKept.start (hs : (mapMachine D).start s) : FilesKept s := by
  refine ⟨fun p => ⟨[], hs.2 p, trivial⟩, fun p i hi => ?_⟩
  have hchain : Chain (s.areas p).next (s.areas p).head [] := hs.2 p
  exact absurd (hchain.reaches_iff.mp hi.1) not_mem_nil

lemma isOpen_setFile {f : Option File} {c : Nat} (hne : c ≠ a) (s : SysState W) :
    IsOpen (s.setFile a f) c ↔ IsOpen s c := by
  rw [IsOpen, IsOpen, SysState.setFile]
  dsimp only
  rw [update_of_ne hne]

section

variable (h : FilesKept s)
include h

lemma FilesKept.closed (hkeep : ∀ q i, MapsFile s q i → ((s.areas q).area i).file ≠ a) :
    FilesKept ((s.setFile a none).setEntry p fd none) :=
  h.files rfl fun q i hi hopen => (isOpen_setFile (hkeep q i hi) s).mpr hopen

lemma FilesKept.opened {f : File} (hfresh : s.files a = none) :
    FilesKept ((s.setEntry p fd (some a)).setFile a (some f)) := by
  refine h.files rfl fun q i _ hopen => (isOpen_setFile ?_ _).mpr hopen
  rintro rfl
  obtain ⟨f', hf', -⟩ := hopen
  rw [hfresh] at hf'
  cases hf'

lemma FilesKept.areas (hd : DList al.next al.prev al.head l)
    (hlive : ∀ j ∈ l, (al.area j).flags &&& mapAnonymous = 0 → IsOpen s (al.area j).file) :
    FilesKept { s with areas := update s.areas p al } := by
  refine ⟨fun q => ?_, fun q i hi => ?_⟩
  · by_cases hq : q = p
    · subst hq
      exact ⟨l, by dsimp only; rw [update_self]; exact hd⟩
    · dsimp only
      rw [update_of_ne hq]
      exact h.links q
  · by_cases hq : q = p
    · subst hq
      rw [MapsFile] at hi
      dsimp only at hi ⊢
      rw [update_self] at hi ⊢
      exact hlive i (hd.chain.reaches_iff.mp hi.1) hi.2
    · rw [MapsFile] at hi
      dsimp only at hi ⊢
      rw [update_of_ne hq] at hi ⊢
      exact h.live q i hi

lemma FilesKept.step (hact : KeepsFiles s act) (hstep : MapStep D s act s') : FilesKept s' := by
  cases hstep with
  | «open» hfresh hcall =>
    rcases open_after hcall with rfl | ⟨a, inode, fd, rfl, -, rfl⟩
    · exact h
    · exact h.opened hfresh.1
  | close hcall =>
    rcases close_after hcall with ⟨rfl, -⟩ | ⟨a, hstd, hfd, ha, rfl⟩
    · exact h
    · exact h.closed (hact hstd hfd a ha)
  | @mmap p _ _ _ _ _ _ hfresh hcall =>
    obtain ⟨l, hd⟩ := h.links p
    rcases mmap_areas hd hfresh hcall with
      ⟨rfl, -⟩ | ⟨i, b, l', rfl, href, hd', -, hmem, hfile, hflags, hothers⟩
    · exact h.areas hd fun j hj hanon => h.live p j ⟨hd.chain.reaches_iff.mpr hj, hanon⟩
    · refine h.areas hd' fun j hj hanon => ?_
      by_cases hji : j = i
      · subst hji
        rw [hfile]
        exact hact href (hflags ▸ hanon) j b rfl
      · obtain ⟨hsame, hsame'⟩ := hothers j hji
        rw [hsame]
        rw [hsame'] at hanon
        exact h.live p j ⟨hd.chain.reaches_iff.mpr ((hmem j hj).resolve_left hji), hanon⟩
  | @munmap p _ _ _ hcall =>
    obtain ⟨l, hd⟩ := h.links p
    obtain ⟨l', hd', hmem, hothers⟩ := munmapList_areas hd hcall
    refine h.areas hd' fun j hj hanon => ?_
    obtain ⟨hsame, hsame'⟩ := hothers j
    rw [hsame]
    rw [hsame'] at hanon
    exact h.live p j ⟨hd.chain.reaches_iff.mpr (hmem j hj), hanon⟩
  | fault w => exact ⟨h.links, h.live⟩

/-- A step against the condition leaves an area with a bad pointer. -/
lemma FilesKept.bad_step (hact : ¬ KeepsFiles s act) (hstep : MapStep D s act s') :
    ¬ MappedLive s' := by
  intro hlive
  cases hstep with
  | «open» hfresh hcall => exact hact trivial
  | close hcall =>
    rw [KeepsFiles] at hact
    push Not at hact
    obtain ⟨hstd, hfd, a, ha, q, i, hi, hfile⟩ := hact
    rcases close_after hcall with ⟨-, hnone⟩ | ⟨a', -, -, ha', rfl⟩
    · rw [ha] at hnone
      simp at hnone
      omega
    · obtain rfl : a = a' := some_inj.mp (ha.symm.trans ha')
      obtain ⟨f, hf, -⟩ : ∃ f, update s.files a none ((s.areas q).area i).file = some f ∧
          f.ops = .dfs := hlive.areas q i hi
      rw [hfile, update_self] at hf
      cases hf
  | @mmap p _ _ _ _ _ _ hfresh hcall =>
    rw [KeepsFiles] at hact
    push Not at hact
    obtain ⟨href, hanon, i, b, rfl, hbad⟩ := hact
    obtain ⟨l, hd⟩ := h.links p
    rcases mmap_areas hd hfresh hcall with
      ⟨-, href' | hnone⟩ | ⟨i', b', l', heq, -, hd', hi, -, hfile, hflags, -⟩
    · exact href href'
    · cases hnone
    · cases heq
      have hopen := hlive.areas p i
      rw [MapsFile] at hopen
      dsimp only at hopen
      rw [update_self, hfile, hflags] at hopen
      exact hbad (hopen ⟨hd'.chain.reaches_iff.mpr hi, hanon⟩)
  | munmap hcall => exact hact trivial
  | fault w => exact hact trivial

end

/-! ## Main result -/

/-- As long as no file is closed that an area maps and every descriptor that is mapped has an
open file, the areas point to open files. The first call against this leaves an area that does
not. -/
theorem mapped_files_live_iff (run : (mapMachine D).Reached KeepsFiles s) :
    (mapMachine D).SafeExactlyWhen MappedLive KeepsFiles s :=
  run.safeExactlyWhen (fun _ hs => FilesKept.start hs)
    (fun _ _ _ h hact hstep => h.step hact hstep) (fun _ h => h.mappedLive)
    fun _ _ _ h hstep hact => h.bad_step hact hstep

/-- A private mapping of one page. -/
def mapPage (fd : Nat) : MmapCall := ⟨4096, 1, mapPrivate, fd, 0⟩

def mappedArea (s : SysState Unit) : AreaList :=
  ((Vm.mmap 1 (s.areas 1) (s.entryAt 1 fun _ => none) (some (5, blankArea)) (mapPage 3)).getD
    (s.areas 1, 0)).1

/-- Process 1 maps a page of the file that it has opened, ... -/
def fileMapped : SysState Unit :=
  { fileOpened with areas := update fileOpened.areas 1 (mappedArea fileOpened) }

/-- ... and closes the descriptor. -/
def fileClosed : SysState Unit := (fileMapped.setFile 0x3000 none).setEntry 1 3 none

/-- Or it maps a page of descriptor 3 without having opened it. -/
def neverOpened : SysState Unit :=
  { newProcess with areas := update newProcess.areas 1 (mappedArea newProcess) }

lemma newProcess_noAreas (p : Nat) : Fresh (newProcess.areas p) (some (5, blankArea)) := by
  intro i _ _ hreach
  have hempty : Chain (newProcess.areas p).next (newProcess.areas p).head [] := rfl
  exact not_mem_nil (hempty.reaches_iff.mp hreach)

lemma fileMapped_step : MapStep oneFileDrivers fileOpened
    (1, .mmap (fun _ => none) (some (5, blankArea)) (mapPage 3) (mmapStart - 4096)) fileMapped := by
  have hcall : Vm.mmap 1 (fileOpened.areas 1) (fileOpened.entryAt 1 fun _ => none)
      (some (5, blankArea)) (mapPage 3) = some (mappedArea fileOpened, mmapStart - 4096) := rfl
  exact .mmap (newProcess_noAreas 1) hcall

lemma neverOpened_step : MapStep oneFileDrivers newProcess
    (1, .mmap (fun _ => none) (some (5, blankArea)) (mapPage 3)
      (mmapStart - 4096)) neverOpened := by
  have hcall : Vm.mmap 1 (newProcess.areas 1) (newProcess.entryAt 1 fun _ => none)
      (some (5, blankArea)) (mapPage 3) = some (mappedArea newProcess, mmapStart - 4096) := rfl
  exact .mmap (newProcess_noAreas 1) hcall

lemma newProcess_mapStart : (mapMachine oneFileDrivers).start newProcess :=
  ⟨⟨0x1000, 0x2000, fun _ => rfl, fun _ => rfl⟩, fun _ => rfl⟩

lemma fileMapped_reached : (mapMachine oneFileDrivers).Reached KeepsFiles fileMapped := by
  have hopen :
      MapStep oneFileDrivers newProcess (1, .open [102] oRdonly (some 0x3000)) fileOpened :=
    .open (newProcess_fresh _ _) (.inr ⟨3, none, rfl⟩)
  have hkeep : KeepsFiles fileOpened
      (1, .mmap (fun _ => none) (some (5, blankArea)) (mapPage 3) (mmapStart - 4096)) :=
    fun _ _ _ _ _ => ⟨_, rfl, rfl⟩
  have htrivial : KeepsFiles newProcess (1, .open [102] oRdonly (some 0x3000)) := trivial
  exact .step (.step (.start newProcess_mapStart) htrivial hopen) hkeep fileMapped_step

/-- The descriptor is mapped and open. -/
theorem mapped_files_live_mapped :
    (mapMachine oneFileDrivers).SafeExactlyWhen MappedLive KeepsFiles fileMapped :=
  mapped_files_live_iff fileMapped_reached

/-- After the close a fault in the area reads the freed block. And a descriptor that was never
opened gives an area whose pointer is what the block from `kmalloc` held, here null. -/
theorem mapped_file_freed : (mapMachine oneFileDrivers).Reached KeepsFiles fileMapped ∧
      MapStep oneFileDrivers fileMapped (1, .close 3) fileClosed ∧
      fileClosed.faultFile 2 1 (mmapStart - 1) = some (some 0x3000) ∧
      fileClosed.files 0x3000 = none ∧ ¬ MappedLive fileClosed ∧
      (mapMachine oneFileDrivers).Reached KeepsFiles newProcess ∧
      MapStep oneFileDrivers newProcess
        (1, .mmap (fun _ => none) (some (5, blankArea)) (mapPage 3)
          (mmapStart - 4096)) neverOpened ∧
      neverOpened.faultFile 2 1 (mmapStart - 1) = some (some 0) ∧ ¬ MappedLive neverOpened := by
  have hread : fileClosed.faultFile 2 1 (mmapStart - 1) = some (some 0x3000) := by decide +kernel
  have hread' : neverOpened.faultFile 2 1 (mmapStart - 1) = some (some 0) := by decide +kernel
  refine ⟨fileMapped_reached, .close (.inr ⟨0, some 0x3000, rfl⟩), hread, rfl, fun hlive => ?_,
    .start newProcess_mapStart, neverOpened_step, hread', fun hlive => ?_⟩
  · obtain ⟨f, hf, -⟩ := hlive.faults 2 1 _ _ hread
    cases hf
  · obtain ⟨f, hf, -⟩ := hlive.faults 2 1 _ _ hread'
    cases hf

end DestinX.Syscall
