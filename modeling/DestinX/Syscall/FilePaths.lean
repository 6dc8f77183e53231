import DestinX.Fs.Lookup
import DestinX.Syscall.DiskFiles
import DestinX.Syscall.Outcomes

/-!
# The path of an open file

`open` keeps the inode that it finds, and the first 255 bytes of the path. `dfs_file_read` and
`dfs_file_write` take the size from the inode and hand the path to `dfs_read` and `dfs_write`,
which look it up again. For a longer path both can lead to different inodes; otherwise they
agree as long as nobody writes to the directories.
-/

namespace DestinX.Syscall

open Base Fs Function List Option Prod Nat

/-- A system call on files by a process, `SYS_SYNC`, or whatever else changes memory. -/
inductive Action where
  | call (p : Nat) (d : Devices) (c : Call)
  | sync (d : Devices)
  | others (areas : Nat → Vm.AreaList) (free : List Nat) (faults : List Bool) (mem : Mem)

def inodesOf (table : Nat → TableInode) (k : Nat) : Inode := (table k).toInode

/-- The inode that `dfs_get_inode` finds. -/
def pathInode (table : Nat → TableInode) (st : FsState) (fp : List UInt8) : Option Inode :=
  ((dfsGetInode table st.noFaults fp).bind Prod.snd).map (inodesOf table)

/-- The state with the paths that the directories on the disk have. -/
def resolved (table : Nat → TableInode) (st : FsState) : FsState :=
  { st with inodes := pathInode table st }

/-- The drivers with this lookup. During a call the directories do not change. -/
def pathDrivers (table : Nat → TableInode) (d : Devices) : Drivers FsState where
  lookup := pathInode table
  read f buf count st := (drivers d).read f buf count (resolved table st)
  write f buf count st := (drivers d).write f buf count (resolved table st)
  sync f st := (drivers d).sync f (resolved table st)

/-- The path is a string. -/
def Call.HasString : Call → Prop
  | .open fp _ _ => 0 ∉ fp
  | _ => True

def pathStep (table : Nat → TableInode) (s : SysState FsState) (act : Action)
    (s' : SysState FsState) : Prop :=
  match act with
  | .call p d c =>
    c.HasString ∧ c.Fresh s ∧ (s.syscall (pathDrivers table d) p c).After s s'
  | .sync d =>
    s' = { s with world := (sysSync d.fails (inodesOf table) (resolved table s.world)).1 }
  | .others areas free faults mem =>
    s' = { s with
      areas := areas
      world := { s.world with free := free, faults := faults, mem := mem } }

/-- No file of the disk is open. Directories fit into a block, and their names end. -/
structure PathStart (table : Nat → TableInode) (s : SysState FsState) : Prop where
  closed : ∀ a f, s.files a = some f → f.ops = .terminal
  oneBlock : OneBlock table
  names : NamesEnd table s.world.disk

def pathMachine (table : Nat → TableInode) : Machine (SysState FsState) Action where
  start := PathStart table
  step := pathStep table

/-- The path of every open file leads to its inode. -/
def NamesOwn (table : Nat → TableInode) (s : SysState FsState) : Prop :=
  ∀ a f, s.files a = some f → f.ops = .dfs →
    ∃ inode, f.privateData = some inode ∧ pathInode table s.world f.fp = some inode

/-- The process has this file at the descriptor. -/
def FileAt (s : SysState FsState) (p fd : Nat) (f : File) : Prop :=
  ∃ a, s.fdTable p fd = some a ∧ s.files a = some f

/-- The path that is kept leads to where the whole path leads, and what is written back does not
change a directory. -/
def PathsSteady (table : Nat → TableInode) (s : SysState FsState) : Action → Prop
  | .call _ _ (.open fp _ _) => pathInode table s.world (fp.take 255) = pathInode table s.world fp
  | .call p d (.fsync fd) => ∀ f w ret, FileAt s p fd f →
      (pathDrivers table d).sync f s.world = some (w, ret) → DirsSame table s.world.disk w.disk
  | .sync d => DirsSame table s.world.disk
      (sysSync d.fails (inodesOf table) (resolved table s.world)).1.disk
  | _ => True

variable {table : Nat → TableInode} {s s' : SysState FsState} {st st' : FsState} {f : File}
  {inode : Inode} {d : Devices} {mode : Mode} {act : Action} {c : Call} {fp : List UInt8}
  {block : Option Nat} {p fd a buf count position ret fuel flags : Nat}

/-! ## The disk during a call -/

lemma fileTransfer_disk
    (h : dfsFileTransfer mode fuel f buf count st = some (st', position, ret)) :
    st'.disk = st.disk := by
  obtain ⟨inode, hdata, h⟩ := bind_eq_some_iff.mp h
  by_cases hlt : f.position < inode.size
  · have hcall : dfsFileTransfer mode fuel f buf count st = some (st', position, ret) := by
      rw [dfsFileTransfer, fileTransfer, hdata]
      exact h
    obtain ⟨k, htransfer⟩ := fileTransfer_call hdata hlt hcall
    obtain ⟨id, hgrown, -⟩ := transfer_grown htransfer
    exact hgrown.disk
  · rw [if_pos (not_lt.mp hlt)] at h
    obtain ⟨rfl, -⟩ := mk.inj (some.inj h)
    rfl

lemma read_disk (h : (drivers d).read f buf count st = some (st', position, ret)) :
    st'.disk = st.disk := by
  rcases ops_cases f with hops | hops
  · simp only [drivers, hops, map_eq_some_iff] at h
    obtain ⟨st1, hread, heq⟩ := h
    obtain ⟨rfl, -⟩ := mk.inj heq
    rw [terminalRead] at hread
    split_ifs at hread
    cases hread
    rfl
  · simp only [drivers, hops] at h
    exact fileTransfer_disk h

lemma write_disk (h : (drivers d).write f buf count st = some (st', position, ret)) :
    st'.disk = st.disk := by
  rcases ops_cases f with hops | hops
  · simp only [drivers, hops] at h
    obtain ⟨rfl, -⟩ := mk.inj (some.inj h)
    rfl
  · simp only [drivers, hops] at h
    exact fileTransfer_disk h

/-! ## Calls -/

/-- Files have been closed or have moved on, but none is new. -/
def FilesFrom (s s' : SysState FsState) : Prop :=
  ∀ a f', s'.files a = some f' →
    ∃ f position, s.files a = some f ∧ f' = { f with position := position }

lemma FilesFrom.of_eq (h : s'.files = s.files) : FilesFrom s s' := fun _ f' hf' =>
  ⟨f', f'.position, h ▸ hf', rfl⟩

lemma filesFrom_position (hf : s.files a = some f) (position : Nat) (w : FsState) :
    FilesFrom s { s.setFile a (some { f with position := position }) with world := w } := by
  intro a' f' hf'
  by_cases ha : a' = a
  · subst ha
    simp only [SysState.setFile, update_self] at hf'
    cases hf'
    exact ⟨f, position, hf, rfl⟩
  · simp only [SysState.setFile, update_of_ne ha] at hf'
    exact ⟨f', f'.position, hf', rfl⟩

lemma filesFrom_closed (s : SysState FsState) (p fd a : Nat) :
    FilesFrom s ((s.setFile a none).setEntry p fd none) := by
  intro a' f' hf'
  by_cases ha : a' = a
  · subst ha
    simp only [SysState.setEntry, SysState.setFile, update_self] at hf'
    cases hf'
  · simp only [SysState.setEntry, SysState.setFile, update_of_ne ha] at hf'
    exact ⟨f', f'.position, hf', rfl⟩

/-- A step that opens no file and keeps the directories. -/
structure Quiet (table : Nat → TableInode) (s s' : SysState FsState) : Prop where
  files : FilesFrom s s'
  dirs : DirsSame table s.world.disk s'.world.disk

lemma Quiet.of_disk (hfiles : FilesFrom s s') (hdisk : s'.world.disk = s.world.disk) :
    Quiet table s s' := by
  refine ⟨hfiles, ?_⟩
  rw [hdisk]
  exact DirsSame.refl table s.world.disk

/-- A call that opens no file and leaves the volume alone. -/
def Idle (s s' : SysState FsState) : Prop := FilesFrom s s' ∧ s'.world = s.world

lemma Idle.refl (s : SysState FsState) : Idle s s := ⟨FilesFrom.of_eq rfl, rfl⟩

lemma Idle.quiet (h : Idle s s') : Quiet table s s' :=
  Quiet.of_disk h.1 (congrArg FsState.disk h.2)

lemma Quiet.refl (s : SysState FsState) : Quiet table s s := (Idle.refl s).quiet

lemma quiet_read (h : (s.sysRead (pathDrivers table d) p fd buf count).After s s') :
    Quiet table s s' := by
  obtain rfl | ⟨a, f, w, position, ret, -, hf, hop, rfl⟩ := transferCall_after h
  · exact Quiet.refl s'
  · have hdisk : w.disk = (resolved table s.world).disk := read_disk hop
    exact Quiet.of_disk (filesFrom_position hf position w) hdisk

lemma quiet_write (h : (s.sysWrite (pathDrivers table d) p fd buf count).After s s') :
    Quiet table s s' := by
  obtain rfl | ⟨a, f, w, position, ret, -, hf, hop, rfl⟩ := transferCall_after h
  · exact Quiet.refl s'
  · have hdisk : w.disk = (resolved table s.world).disk := write_disk hop
    exact Quiet.of_disk (filesFrom_position hf position w) hdisk

lemma idle_close (h : (s.close p fd).After s s') : Idle s s' := by
  obtain ⟨rfl, -⟩ | ⟨a, -, -, -, rfl⟩ := close_after h
  · exact Idle.refl s'
  · exact ⟨filesFrom_closed s p fd a, rfl⟩

lemma idle_lseek {offset whence : Nat} (h : (s.lseek p fd offset whence).After s s') :
    Idle s s' := by
  obtain rfl | ⟨a, f, position, hf, rfl⟩ := lseek_after h
  · exact Idle.refl s'
  · exact ⟨filesFrom_position hf position s.world, rfl⟩

lemma quiet_fsync (hgood : PathsSteady table s (.call p d (.fsync fd)))
    (h : (s.fsync (pathDrivers table d) p fd).After s s') : Quiet table s s' := by
  obtain rfl | ⟨a, f, w, ret, ha, hf, -, hsync, rfl⟩ := fsync_after h
  · exact Quiet.refl s'
  · exact ⟨FilesFrom.of_eq rfl, hgood f w ret ⟨a, ha, hf⟩ hsync⟩

lemma idle_mmap {block : Option (Nat × Vm.VmArea)} {call : Vm.MmapCall}
    (h : (s.mmap p fuel block call).After s s') : Idle s s' := by
  obtain ⟨areas, rfl⟩ := mmap_after h
  exact ⟨FilesFrom.of_eq rfl, rfl⟩

/-! ## All runs -/

structure PathInv (table : Nat → TableInode) (s : SysState FsState) : Prop where
  oneBlock : OneBlock table
  names : NamesEnd table s.world.disk
  strings : ∀ a f, s.files a = some f → f.ops = .dfs → 0 ∉ f.fp
  own : NamesOwn table s

/-- Where a path leads depends on the directories. -/
lemma pathInode_congr (hdirs : OneBlock table) (hends : NamesEnd table st.disk)
    (hsame : DirsSame table st.disk st'.disk) (hfp : 0 ∉ fp) :
    pathInode table st' fp = pathInode table st fp := by
  have hlookup : (dfsGetInode table st'.noFaults fp).map snd =
      (dfsGetInode table st.noFaults fp).map snd :=
    dfsGetInode_congr hdirs hends hsame hfp (fun _ hb => absurd hb not_mem_nil)
      fun _ hb => absurd hb not_mem_nil
  have hjoin : ∀ r : Option (FsState × Option Nat), r.bind snd = (r.map snd).join := by
    intro r
    cases r <;> rfl
  rw [pathInode, pathInode, hjoin, hjoin, hlookup]

lemma PathInv.quiet (hinv : PathInv table s) (h : Quiet table s s') : PathInv table s' := by
  refine ⟨hinv.oneBlock, hinv.names.congr hinv.oneBlock h.dirs, fun a f' hf' hops => ?_,
    fun a f' hf' hops => ?_⟩
  all_goals obtain ⟨f, position, hf, rfl⟩ := h.files a f' hf'
  · exact hinv.strings a f hf hops
  · obtain ⟨inode, hinode, hpath⟩ := hinv.own a f hf hops
    refine ⟨inode, hinode, ?_⟩
    rw [← hpath]
    exact pathInode_congr hinv.oneBlock hinv.names h.dirs (hinv.strings a f hf hops)

/-- The state with a file more. -/
def SysState.withFile (s : SysState FsState) (p fd a flags : Nat) (fp : List UInt8)
    (inode : Inode) : SysState FsState :=
  (s.setEntry p fd (some a)).setFile a (some ⟨fp.take 255, .dfs, flags, 0, some inode⟩)

lemma withFile_new (s : SysState FsState) (p fd a flags : Nat) (fp : List UInt8)
    (inode : Inode) : (s.withFile p fd a flags fp inode).files a =
      some ⟨fp.take 255, .dfs, flags, 0, some inode⟩ := update_self _ _ _

lemma withFile_other {a' : Nat} (ha : a' ≠ a) :
    (s.withFile p fd a flags fp inode).files a' = s.files a' := update_of_ne ha _ _

/-- With a new file, the paths are right exactly when the part of its path that is kept leads to
where the whole path leads. -/
lemma NamesOwn.open_iff (h : NamesOwn table s) (hfresh : s.files a = none)
    (hfound : pathInode table s.world fp = some inode) :
    NamesOwn table (s.withFile p fd a flags fp inode) ↔
      pathInode table s.world (fp.take 255) = pathInode table s.world fp := by
  have hnew := withFile_new s p fd a flags fp inode
  constructor
  · intro hown
    obtain ⟨inode', hdata, hpath⟩ := hown a _ hnew rfl
    cases hdata
    exact hpath.trans hfound.symm
  · intro hsame a' f' hf' hops
    by_cases ha : a' = a
    · subst ha
      cases hnew.symm.trans hf'
      exact ⟨inode, rfl, hsame.trans hfound⟩
    · exact h a' f' ((withFile_other ha).symm.trans hf') hops

lemma PathInv.open (hinv : PathInv table s) (hstring : 0 ∉ fp) (hfresh : s.files a = none)
    (hfound : pathInode table s.world fp = some inode)
    (hgood : pathInode table s.world (fp.take 255) = pathInode table s.world fp) :
    PathInv table (s.withFile p fd a flags fp inode) := by
  refine ⟨hinv.oneBlock, hinv.names, fun a' f' hf' hops => ?_,
    (hinv.own.open_iff hfresh hfound).mpr hgood⟩
  by_cases ha : a' = a
  · subst ha
    obtain rfl := some.inj ((withFile_new s p fd a' flags fp inode).symm.trans hf')
    exact fun hmem => hstring (mem_of_mem_take hmem)
  · exact hinv.strings a' f' ((withFile_other ha).symm.trans hf') hops

lemma PathInv.step (hinv : PathInv table s) (hgood : PathsSteady table s act)
    (hstep : pathStep table s act s') : PathInv table s' := by
  cases act with
  | sync d =>
    obtain rfl := hstep
    exact hinv.quiet ⟨FilesFrom.of_eq rfl, hgood⟩
  | others areas free faults mem =>
    obtain rfl := hstep
    exact hinv.quiet (Quiet.of_disk (FilesFrom.of_eq rfl) rfl)
  | call p d c =>
    obtain ⟨hstring, hfresh, hafter⟩ := hstep
    cases c with
    | read fd buf count => exact hinv.quiet (quiet_read hafter)
    | write fd buf count => exact hinv.quiet (quiet_write hafter)
    | close fd => exact hinv.quiet (idle_close hafter).quiet
    | lseek fd offset whence => exact hinv.quiet (idle_lseek hafter).quiet
    | fsync fd => exact hinv.quiet (quiet_fsync hgood hafter)
    | mmap fuel block call => exact hinv.quiet (idle_mmap hafter).quiet
    | «open» fp flags block =>
      obtain rfl | ⟨a, inode, fd, rfl, hfound, rfl⟩ := open_after hafter
      · exact hinv
      · exact hinv.open hstring hfresh.1 hfound hgood

lemma pathInv_start (h : PathStart table s) : PathInv table s := by
  have hnone : ∀ a f, s.files a = some f → f.ops ≠ .dfs := by
    intro a f hf hops
    rw [h.closed a f hf] at hops
    cases hops
  exact ⟨h.oneBlock, h.names, fun a f hf hops => absurd hops (hnone a f hf),
    fun a f hf hops => absurd hops (hnone a f hf)⟩

/-- Four directories, one in the other, with names of 50 bytes, and in the last one two files whose
names differ in the last of 51 bytes. Inode `k` has block `k`. -/
def deepTable (k : Nat) : TableInode :=
  if k = 1 ∨ 5 ≤ k ∧ k ≤ 7 then ⟨⟨k, 64, k, 1⟩, dfsTypeDir⟩
  else if k = 8 then ⟨⟨k, 128, k, 1⟩, dfsTypeDir⟩
  else if k < 16 then ⟨⟨k, 4096, k, 1⟩, 1⟩
  else ⟨⟨k, 0, 0, 0⟩, 1⟩

def deepDisk (x : Nat) : UInt8 :=
  let block := x / 4096
  let off := x % 4096
  if block = 1 ∨ 5 ≤ block ∧ block ≤ 7 then
    if off = 0 then (if block = 1 then 5 else UInt8.ofNat (block + 1))
    else if 8 ≤ off ∧ off < 58 then 97 else 0
  else if block = 8 then
    if off = 0 then 10 else if 8 ≤ off ∧ off < 58 then 98 else if off = 58 then 49
    else if off = 64 then 11 else if 72 ≤ off ∧ off < 122 then 98 else if off = 122 then 50 else 0
  else 0

def deepState : SysState FsState :=
  { newProcess with world := ⟨[], [4096], [], fun _ => none, deepDisk, fun _ => 0⟩ }

/-- The path of the first of the two files. -/
def deepPath : List UInt8 :=
  joinPath (List.replicate 4 (List.replicate 50 97) ++ [List.replicate 50 98 ++ [49]])

lemma deepTable_oneBlock : OneBlock deepTable := by
  intro k _
  unfold deepTable
  split_ifs <;> norm_num

lemma deepTable_names : NamesEnd deepTable deepDisk := by
  intro k hk i hi
  have hdir : k = 8 ∨ k = 1 ∨ k = 5 ∨ k = 6 ∨ k = 7 := by
    unfold deepTable at hk
    split_ifs at hk with h1 h2
    · omega
    · omega
    all_goals cases hk
  obtain rfl | rfl | rfl | rfl | rfl := hdir
  · have htwo : i = 0 ∨ i = 1 := le_one_iff_eq_zero_or_eq_one.mp (Nat.lt_succ_iff.mp hi)
    obtain rfl | rfl := htwo
    · exact ⟨55, by decide, by decide +kernel⟩
    · exact ⟨55, by decide, by decide +kernel⟩
  all_goals
    obtain rfl : i = 0 := lt_one_iff.mp hi
    exact ⟨55, by decide, by decide +kernel⟩

lemma deepState_start : (pathMachine deepTable).start deepState where
  closed := by
    intro a f hf
    simp only [deepState, newProcess] at hf
    split_ifs at hf <;> cases hf <;> rfl
  oneBlock := deepTable_oneBlock
  names := deepTable_names

def steadyDevices : Devices := ⟨1, fun _ => 10, fun _ => false⟩

/-- Process 1 opens a file. -/
lemma newProcess_open (d : Devices) (flags : Nat) (hstring : 0 ∉ fp)
    (hfound : pathInode table st fp = some inode) :
    pathStep table { newProcess with world := st } (.call 1 d (.open fp flags (some 0x3000)))
      (SysState.withFile { newProcess with world := st } 1 3 0x3000 flags fp inode) := by
  refine ⟨hstring, ⟨rfl, fun p fd hfd => ?_⟩, .inr ⟨3, none, ?_⟩⟩
  · simp only [newProcess] at hfd
    split_ifs at hfd <;> cases hfd
  · have hlookup : (pathDrivers table d).lookup st fp = some inode := hfound
    rw [SysState.syscall, SysState.open, hlookup]
    rfl

lemma deepPath_inodes : pathInode deepTable deepState.world deepPath = some ⟨10, 4096, 10, 1⟩ ∧
      pathInode deepTable deepState.world (deepPath.take 255) = some ⟨11, 4096, 11, 1⟩ := by
  decide +kernel

end DestinX.Syscall
