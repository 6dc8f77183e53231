import DestinX.Fs.Lookup

/-!
# Lookups that fail

`dfs_get_inode` returns `NULL` when a name is missing, when something on the way is not a
directory, and when a directory cannot be read; it gives its page back in all cases. Its callers
`dfs_read`, `dfs_write` and `create_user_process` use the inode without a test.
-/

namespace DestinX.Fs

open Base

/-- How `dfs_read` and `dfs_write` end: they return, or follow the pointer `NULL`. -/
inductive CallEnd where
  | returned (st : FsState) (n : Nat)
  | nullInode (st : FsState)

/-- What `dfs_read` and `dfs_write` do with the inode, with the call of the function itself as a
parameter. -/
def inodeTransfer (mode : Mode) (again : FsState → Nat → Option CallEnd) (st : FsState)
    (inode : Inode) (buffer offset size : Nat) : Option CallEnd :=
  if inode.size < offset then some (.returned st 0)
  else if 2 ^ 31 ≤ pageCount offset size then none
  else if miss st.cache inode.inodeNum (pageStart offset / 4096) (pageCount offset size) then
    match mode.load inode st offset size with
    | .error st' => some (.returned st' 0)
    | .ok st' => again st' (cutSize inode offset size)
  else (mode.hit inode st buffer offset size).map fun r => .returned r.1 r.2

/-- The inode, or the pointer `NULL`, is followed right after the lookup. -/
def pathTransferBody (table : Nat → TableInode) (mode : Mode)
    (again : FsState → Nat → Option CallEnd) (st : FsState) (fp : List UInt8)
    (buffer offset size : Nat) : Option CallEnd :=
  if buffer = 0 ∨ size = 0 then some (.returned st 0)
  else
    match dfsGetInode table st fp with
    | none => none
    | some (st', none) => some (.nullInode st')
    | some (st', some k) => inodeTransfer mode again st' (table k).toInode buffer offset size

/-- `dfs_read` and `dfs_write` with their lookup. The first number bounds the depth of the
recursion. -/
def pathTransfer (table : Nat → TableInode) (mode : Mode) :
    Nat → FsState → List UInt8 → Nat → Nat → Nat → Option CallEnd
  | 0, _, _, _, _, _ => none
  | fuel + 1, st, fp, buffer, offset, size =>
    pathTransferBody table mode
      (fun st' size' => pathTransfer table mode fuel st' fp buffer offset size') st fp buffer
      offset size

/-- What `create_user_process` has to do with: the file system with memory and free pages, the
blocks of `kmalloc`, and the page tables in use. -/
structure ProcessState where
  fs : FsState
  blocks : List Nat
  cr3 : Nat

/-- `create_user_process` returns `NULL`, follows the pointer `NULL`, or goes on with an inode. -/
inductive ProcessEnd where
  | returnedNull (st : ProcessState)
  | nullInode (st : ProcessState)
  | goesOn (st : ProcessState) (inode : Nat)

/-- The new PML4: nothing in the lower half, and the upper half of the one in use. -/
def copyPml4 (st : FsState) (cr3 pml4 : Nat) : FsState :=
  { st with mem := fun a =>
      if direct pml4 ≤ a ∧ a < direct pml4 + 2048 then 0
      else if direct pml4 ≤ a ∧ a < direct pml4 + 4096 then st.mem (direct cr3 + (a - direct pml4))
      else st.mem a }

/-- The state in which `create_user_process` looks up the path: a page is taken and filled. -/
def withPml4 (st : FsState) (cr3 : Nat) : FsState :=
  copyPml4 (pmmAllocPage st).2 cr3 (pmmAllocPage st).1

/-- `create_user_process` up to the first use of the inode, with the block that `kmalloc` returns
from the heap as it is. Without a page for the PML4 the block is freed. -/
def createUserProcess (table : Nat → TableInode) (st : ProcessState) (fp : List UInt8)
    (block : Option Nat) : Option ProcessEnd :=
  match block with
  | none => some (.returnedNull st)
  | some p =>
    if (pmmAllocPage st.fs).1 = 0 then
      some (.returnedNull ⟨(pmmAllocPage st.fs).2, (p :: st.blocks).erase p, st.cr3⟩)
    else
      match dfsGetInode table (withPml4 st.fs st.cr3) fp with
      | none => none
      | some (fs', none) => some (.nullInode ⟨fs', p :: st.blocks, st.cr3⟩)
      | some (fs', some k) => some (.goesOn ⟨fs', p :: st.blocks, st.cr3⟩ k)

/-! ## What a failed lookup should lead to -/

/-- `dfs_get_inode` returns `NULL`. -/
def LookupFails (table : Nat → TableInode) (st : FsState) (fp : List UInt8) : Prop :=
  ∃ st', dfsGetInode table st fp = some (st', none)

/-- The call returns 0 and has left free pages, cache and disk as they were. -/
def ReturnsZero (st : FsState) (e : Option CallEnd) : Prop :=
  ∃ st', e = some (.returned st' 0) ∧ st'.files = st.files

/-- The call returns `NULL`, and has left the blocks and the page tables in use too. -/
def ReturnsNull (st : ProcessState) (e : Option ProcessEnd) : Prop :=
  ∃ st', e = some (.returnedNull st') ∧ st'.fs.files = st.fs.files ∧ st'.blocks = st.blocks ∧
    st'.cr3 = st.cr3

variable {table : Nat → TableInode} {st st' : FsState} {ps : ProcessState} {fp : List UInt8}
  {mode : Mode} {block : Option Nat} {fuel buffer offset size p : Nat}

/-! ## What it does lead to -/

lemma pathTransfer_nothing (h : buffer = 0 ∨ size = 0) :
    pathTransfer table mode (fuel + 1) st fp buffer offset size = some (.returned st 0) := by
  rw [pathTransfer, pathTransferBody, if_pos h]

/-- With a buffer and bytes to transfer, the pointer is followed. -/
lemma pathTransfer_null (h : ¬ (buffer = 0 ∨ size = 0))
    (hlookup : dfsGetInode table st fp = some (st', none)) :
    pathTransfer table mode (fuel + 1) st fp buffer offset size = some (.nullInode st') := by
  rw [pathTransfer, pathTransferBody, if_neg h, hlookup]

lemma pathTransfer_fails_iff (h : LookupFails table st fp) :
    ReturnsZero st (pathTransfer table mode (fuel + 1) st fp buffer offset size) ↔
      buffer = 0 ∨ size = 0 := by
  obtain ⟨st', hlookup⟩ := h
  constructor
  · rintro ⟨st1, hend, -⟩
    by_contra hno
    rw [pathTransfer_null hno hlookup] at hend
    cases hend
  · intro hnone
    exact ⟨st, pathTransfer_nothing hnone, rfl⟩

lemma createUserProcess_null (h : (pmmAllocPage ps.fs).1 ≠ 0)
    (hlookup : dfsGetInode table (withPml4 ps.fs ps.cr3) fp = some (st', none)) :
    createUserProcess table ps fp (some p) = some (.nullInode ⟨st', p :: ps.blocks, ps.cr3⟩) := by
  rw [createUserProcess, if_neg h, hlookup]

lemma createUserProcess_noPage (h : ps.fs.free = []) :
    createUserProcess table ps fp (some p) = some (.returnedNull ps) := by
  have hpage : pmmAllocPage ps.fs = (0, ps.fs) := by rw [pmmAllocPage, h]
  rw [createUserProcess, hpage, if_pos rfl, List.erase_cons_head]

lemma createUserProcess_fails_iff (hzero : 0 ∉ ps.fs.free)
    (h : LookupFails table (withPml4 ps.fs ps.cr3) fp) :
    ReturnsNull ps (createUserProcess table ps fp block) ↔ block = none ∨ ps.fs.free = [] := by
  cases block with
  | none => exact iff_of_true ⟨ps, rfl, rfl, rfl, rfl⟩ (.inl rfl)
  | some p =>
    cases hfree : ps.fs.free with
    | nil => exact iff_of_true ⟨ps, createUserProcess_noPage hfree, rfl, rfl, rfl⟩ (.inr rfl)
    | cons f free =>
      have hpage : (pmmAllocPage ps.fs).1 ≠ 0 := by
        rw [pmmAllocPage, hfree]
        exact fun hf => hzero (hfree ▸ hf ▸ List.mem_cons_self)
      obtain ⟨st', hlookup⟩ := h
      refine iff_of_false ?_ ?_
      · rintro ⟨st1, hend, -⟩
        rw [createUserProcess_null hpage hlookup] at hend
        cases hend
      · rintro (hblock | hnil)
        · cases hblock
        · cases hnil

/-- Whatever the path, and whichever directory reads fail: when the lookup yields `NULL`, `dfs_read`
and `dfs_write` return 0 with nothing changed exactly if there was nothing to do anyway, and
`create_user_process` returns `NULL` with nothing changed exactly if it had no memory to begin
with. -/
theorem failed_lookup_handled_iff (hzero : 0 ∉ ps.fs.free) :
    (∀ mode fuel buffer offset size, LookupFails table ps.fs fp →
      (ReturnsZero ps.fs (pathTransfer table mode (fuel + 1) ps.fs fp buffer offset size) ↔
        buffer = 0 ∨ size = 0)) ∧
    ∀ block, LookupFails table (withPml4 ps.fs ps.cr3) fp →
      (ReturnsNull ps (createUserProcess table ps fp block) ↔ block = none ∨ ps.fs.free = []) :=
  ⟨fun _ _ _ _ _ => pathTransfer_fails_iff, fun _ => createUserProcess_fails_iff hzero⟩

/-- The two directories, with a page for the PML4 and one for the lookup. -/
def twoDirsProcess : ProcessState := ⟨{ twoDirsState with free := [4096, 8192] }, [], 0x100000⟩

lemma lookupFails_of_snd (h : (dfsGetInode table st fp).map Prod.snd = some none) :
    LookupFails table st fp := by
  obtain ⟨⟨st', r⟩, hr, rfl⟩ := Option.map_eq_some_iff.mp h
  exact ⟨st', hr⟩

theorem failed_lookup_no_buffer : LookupFails twoDirs twoDirsProcess.fs (joinPath [[98]]) ∧
      ReturnsZero twoDirsProcess.fs
        (pathTransfer twoDirs readMode 1 twoDirsProcess.fs (joinPath [[98]]) 0 0 10) := by
  have hfails : LookupFails twoDirs twoDirsProcess.fs (joinPath [[98]]) :=
    lookupFails_of_snd (by decide +kernel)
  have hzero : 0 ∉ twoDirsProcess.fs.free := by decide
  exact ⟨hfails, ((failed_lookup_handled_iff hzero).1 readMode 0 0 0 10 hfails).mpr (.inl rfl)⟩

/-- Nothing is at `/b`: a read of it, and a process made from it. -/
theorem failed_lookup_followed :
    (∃ st', pathTransfer twoDirs readMode 1 twoDirsProcess.fs (joinPath [[98]]) 0x400000 0 10 =
        some (.nullInode st')) ∧
      ∃ st', createUserProcess twoDirs twoDirsProcess (joinPath [[98]]) (some 0x5000) =
        some (.nullInode st') := by
  have hbuffer : ¬ (0x400000 = 0 ∨ 10 = 0) := by decide
  have hpage : (pmmAllocPage twoDirsProcess.fs).1 ≠ 0 := by decide
  obtain ⟨st1, h1⟩ : LookupFails twoDirs twoDirsProcess.fs (joinPath [[98]]) :=
    lookupFails_of_snd (by decide +kernel)
  obtain ⟨st2, h2⟩ : LookupFails twoDirs (withPml4 twoDirsProcess.fs twoDirsProcess.cr3)
      (joinPath [[98]]) := lookupFails_of_snd (by decide +kernel)
  exact ⟨⟨st1, pathTransfer_null hbuffer h1⟩, ⟨_, createUserProcess_null hpage h2⟩⟩

end DestinX.Fs
