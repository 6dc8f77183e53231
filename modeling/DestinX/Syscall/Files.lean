import DestinX.Vm.Mmap

/-!
# System calls on files

The calls of `syscall_handler` that take or make file descriptors, with `fs/vfs.c` and the part
of `mmap` that looks at the descriptor. The table of a process has `MAX_FD` entries; behind it
is `heap_start`. What the operations of a `FILE` do to the rest of the system is a parameter.

`SYS_READ` and `SYS_WRITE` use the descriptor as it comes. `close`, `lseek` and `fsync` let
`MAX_FD` itself pass. `mmap` takes a descriptor without a file for one that needs none.
-/

namespace DestinX.Syscall

open Base Fs Vm Function List Option

universe u

/-- The `vfs_ops_t` of a file: `terminal_ops` or `dfs_ops`. -/
inductive OpsTable where
  | terminal
  | dfs
  deriving DecidableEq, Repr

/-- `struct FILE`, with the inode behind `private_data`. -/
structure File where
  fp : List UInt8
  ops : OpsTable
  (flags position : Nat)
  privateData : Option Inode
  deriving DecidableEq, Repr

/-- The world, the files in use by their addresses, and for each process its table and
its mapped areas. -/
structure SysState (W : Type u) where
  world : W
  files : Nat → Option File
  fdTable : Nat → Nat → Option Nat
  areas : Nat → AreaList

/-- What the files need of the drivers. Reading and writing end with a new position and a
count, or do not return. -/
structure Drivers (W : Type u) where
  lookup : W → List UInt8 → Option Inode
  (read write : File → Nat → Nat → W → Option (W × Nat × Nat))
  sync : File → W → Option (W × Nat)

/-! ## How a call ends -/

inductive Fault where
  | outOfBounds (fd : Nat)
  | null
  | freed (a : Nat)
  | noReturn (file : Option Nat)
  deriving DecidableEq, Repr

/-- An error is returned and nothing has been done; or the call returns, with the file
that it has worked on; or it goes wrong. -/
inductive Outcome (W : Type u) where
  | failed (ret : Nat)
  | returned (s : SysState W) (ret : Nat) (file : Option Nat)
  | fault (f : Fault)

variable {W : Type u}

def maxFd : Nat := 128

def minusOne : Nat := 2 ^ 64 - 1

/-- `fd_table[fd]` -/
def SysState.index (s : SysState W) (p fd : Nat) (body : Option Nat → Outcome W) : Outcome W :=
  if fd < maxFd then body (s.fdTable p fd) else .fault (.outOfBounds fd)

/-- Follow a pointer to a `FILE`. -/
def SysState.deref (s : SysState W) (entry : Option Nat) (body : Nat → File → Outcome W) :
    Outcome W :=
  match entry with
  | none => .fault .null
  | some a =>
    match s.files a with
    | none => .fault (.freed a)
    | some f => body a f

def SysState.setFile (s : SysState W) (a : Nat) (f : Option File) : SysState W :=
  { s with files := update s.files a f }

def SysState.setEntry (s : SysState W) (p fd : Nat) (entry : Option Nat) : SysState W :=
  { s with fdTable := update s.fdTable p (update (s.fdTable p) fd entry) }

/-! ## The calls -/

def oRdonly : Nat := 1
def oWronly : Nat := 2
def oRdwr : Nat := 3

/-- `SYS_READ` and `SYS_WRITE`: the flags are tested for either of two modes. -/
def SysState.transferCall (s : SysState W) (mode : Nat)
    (op : File → Nat → Nat → W → Option (W × Nat × Nat)) (p fd buf count : Nat) : Outcome W :=
  s.index p fd fun entry => s.deref entry fun a f =>
    if f.flags &&& mode ≠ 0 ∨ f.flags &&& oRdwr ≠ 0 then
      match op f buf count s.world with
      | none => .fault (.noReturn (some a))
      | some (w, position, ret) =>
        .returned { s.setFile a (some { f with position := position }) with world := w }
          ret (some a)
    else .returned s 0 (some a)

def SysState.sysRead (D : Drivers W) (s : SysState W) (p fd buf count : Nat) : Outcome W :=
  s.transferCall oRdonly D.read p fd buf count

def SysState.sysWrite (D : Drivers W) (s : SysState W) (p fd buf count : Nat) : Outcome W :=
  s.transferCall oWronly D.write p fd buf count

/-- `open`, with the block that `kmalloc` returns, which is not checked. -/
def SysState.open (D : Drivers W) (s : SysState W) (p : Nat) (fp : List UInt8) (flags : Nat)
    (block : Option Nat) : Outcome W :=
  match D.lookup s.world fp with
  | none => .failed minusOne
  | some inode =>
    match (List.range maxFd).find? fun i => (s.fdTable p i).isNone with
    | none => .failed minusOne
    | some fd =>
      match block with
      | none => .fault .null
      | some a =>
        .returned ((s.setEntry p fd (some a)).setFile a
          (some ⟨fp.take 255, .dfs, flags, 0, some inode⟩)) fd none

/-- The common beginning of `close`, `lseek` and `fsync`. -/
def SysState.checked (s : SysState W) (p fd : Nat) (body : Nat → File → Outcome W) : Outcome W :=
  if fd ≤ 2 then .returned s 0 none
  else if maxFd < fd then .failed minusOne
  else s.index p fd fun entry =>
    if entry = none then .failed minusOne else s.deref entry body

/-- `close`. `terminal_ops` has no `close`; `dfs_file_close` frees the block. -/
def SysState.close (s : SysState W) (p fd : Nat) : Outcome W :=
  s.checked p fd fun a f =>
    match f.ops with
    | .terminal => .fault .null
    | .dfs => .returned ((s.setFile a none).setEntry p fd none) 0 (some a)

/-- A 64-bit value that was converted to `int`, in a register. -/
def toInt (x : Nat) : Nat :=
  if x % 2 ^ 32 < 2 ^ 31 then x % 2 ^ 32 else x % 2 ^ 32 + (2 ^ 64 - 2 ^ 32)

def SysState.lseek (s : SysState W) (p fd offset whence : Nat) : Outcome W :=
  s.checked p fd fun a f =>
    let seek (position : Nat) : Outcome W :=
      .returned (s.setFile a (some { f with position := position })) (toInt offset) (some a)
    match whence with
    | 0 => seek offset
    | 1 => seek (add64 f.position offset)
    | 2 =>
      match f.privateData with
      | none => .fault .null
      | some inode => seek (sub64 inode.size offset)
    | _ => .failed minusOne

/-- `fsync`. `terminal_ops` has no `sync`. -/
def SysState.fsync (D : Drivers W) (s : SysState W) (p fd : Nat) : Outcome W :=
  s.checked p fd fun a f =>
    match f.ops with
    | .terminal => .fault .null
    | .dfs =>
      match D.sync f s.world with
      | none => .fault (.noReturn (some a))
      | some (w, ret) => .returned { s with world := w } ret (some a)

/-- `mmap`, with the block that `kmalloc` returns. An entry that is null is passed over. -/
def SysState.mmap (s : SysState W) (p fuel : Nat) (block : Option (Nat × VmArea))
    (call : MmapCall) :
    Outcome W :=
  let map (entry : Option Nat) : Outcome W :=
    match Vm.mmap fuel (s.areas p) (fun _ => entry) block call with
    | none => .fault (.noReturn entry)
    | some (l, ret) => .returned { s with areas := update s.areas p l } ret entry
  if call.Refused then .failed (errno einval)
  else if block = none then .failed (errno enomem)
  else if call.flags &&& mapAnonymous ≠ 0 then map none
  else s.index p call.fd map

inductive Call where
  | read (fd buf count : Nat)
  | write (fd buf count : Nat)
  | open (fp : List UInt8) (flags : Nat) (block : Option Nat)
  | close (fd : Nat)
  | lseek (fd offset whence : Nat)
  | fsync (fd : Nat)
  | mmap (fuel : Nat) (block : Option (Nat × VmArea)) (call : MmapCall)

def SysState.syscall (D : Drivers W) (s : SysState W) (p : Nat) : Call → Outcome W
  | .read fd buf count => s.sysRead D p fd buf count
  | .write fd buf count => s.sysWrite D p fd buf count
  | .open fp flags block => s.open D p fp flags block
  | .close fd => s.close p fd
  | .lseek fd offset whence => s.lseek p fd offset whence
  | .fsync fd => s.fsync D p fd
  | .mmap fuel block call => s.mmap p fuel block call

/-! ## Runs -/

/-- The state after a call that returns. -/
def Outcome.After (s : SysState W) (o : Outcome W) (s' : SysState W) : Prop :=
  (∃ ret, o = .failed ret ∧ s' = s) ∨ ∃ ret file, o = .returned s' ret file

/-- The block for a new `FILE` is one that is not in use. -/
def Call.Fresh (s : SysState W) : Call → Prop
  | .open _ _ (some a) => s.files a = none ∧ ∀ p fd, s.fdTable p fd ≠ some a
  | _ => True

/-- The processes have the terminal in the first three entries, and nothing else. -/
def fileMachine (D : Drivers W) : Machine (SysState W) (Nat × Call) where
  start s := ∃ stdin stdout,
    (∀ p, s.fdTable p =
      fun fd => if fd = 0 then some stdin else if fd ≤ 2 then some stdout else none) ∧
    ∀ a, s.files a = if a = stdin then some ⟨[], .terminal, oRdonly, 0, none⟩
      else if a = stdout then some ⟨[], .terminal, oWronly, 0, none⟩ else none
  step s act s' := act.2.Fresh s ∧ (s.syscall D act.1 act.2).After s s'

/-- The descriptor that a call has, unless it makes no use of one. -/
def Call.descriptor : Call → Option Nat
  | .read fd _ _ => some fd
  | .write fd _ _ => some fd
  | .open _ _ _ => none
  | .close fd => some fd
  | .lseek fd _ _ => some fd
  | .fsync fd => some fd
  | .mmap _ _ call => if call.flags &&& mapAnonymous ≠ 0 then none else some call.fd

/-- Other files and other entries are as before. -/
structure OnlyFile (s : SysState W) (p fd a : Nat) (s' : SysState W) : Prop where
  files : ∀ a', a' ≠ a → s'.files a' = s.files a'
  table : ∀ p' fd', (p', fd') ≠ (p, fd) → s'.fdTable p' fd' = s.fdTable p' fd'

/-- The call works on the file that the table holds for the descriptor. For the terminal,
`close`, `lseek` and `fsync` have nothing to do. -/
def Operates (s : SysState W) (p fd : Nat) (o : Outcome W) : Prop :=
  ∃ a f, fd < maxFd ∧ s.fdTable p fd = some a ∧ s.files a = some f ∧
    ((∃ s' ret, o = .returned s' ret (some a) ∧ OnlyFile s p fd a s') ∨
      o = .fault (.noReturn (some a)) ∨ (f.ops = .terminal ∧ o = .returned s 0 none))

/-- The table is not left and no null pointer and no freed file is followed. -/
def Outcome.InBounds : Outcome W → Prop
  | .fault (.outOfBounds _) => False
  | .fault .null => False
  | .fault (.freed _) => False
  | _ => True

/-- A call with a descriptor works on its file, or returns an error with nothing done. -/
def CallSafe (D : Drivers W) (s : SysState W) (p : Nat) (c : Call) : Prop :=
  (s.syscall D p c).InBounds ∧ ∀ fd, c.descriptor = some fd →
      Operates s p fd (s.syscall D p c) ∨ ∃ ret, s.syscall D p c = .failed ret

/-- There is a file at the descriptor. -/
def HasFile (s : SysState W) (p fd : Nat) : Prop := fd < maxFd ∧ s.fdTable p fd ≠ none

/-- `SYS_READ` and `SYS_WRITE` get a descriptor with a file, and so does `mmap` when it comes to
use one. The others do not get `MAX_FD`. `open` gets a block if it has an inode and an
entry. -/
def DescriptorValid (D : Drivers W) (s : SysState W) (p : Nat) : Call → Prop
  | .read fd _ _ => HasFile s p fd
  | .write fd _ _ => HasFile s p fd
  | .open fp _ block =>
    D.lookup s.world fp ≠ none → (∃ fd < maxFd, s.fdTable p fd = none) → block ≠ none
  | .close fd => fd ≠ maxFd
  | .lseek fd _ _ => fd ≠ maxFd
  | .fsync fd => fd ≠ maxFd
  | .mmap _ block call =>
    ¬ call.Refused → block ≠ none → call.flags &&& mapAnonymous = 0 → HasFile s p call.fd

/-! ## The invariant -/

variable {D : Drivers W} {s s' : SysState W} {c : Call} {o : Outcome W} {f : File} {inode : Inode}
  {body : Nat → File → Outcome W} {p fd a : Nat}

/-- Each entry points to a file in use: the first three to the terminal, the others to files
of the disk, no two to the same. -/
structure TablesKept (s : SysState W) : Prop where
  live : ∀ p fd a, s.fdTable p fd = some a → ∃ f, s.files a = some f ∧
    if fd ≤ 2 then f.ops = .terminal else f.ops = .dfs ∧ f.privateData ≠ none
  std : ∀ p fd, fd ≤ 2 → s.fdTable p fd ≠ none
  apart : ∀ p fd p' fd' a, ¬ fd ≤ 2 → s.fdTable p fd = some a → s.fdTable p' fd' = some a →
    p' = p ∧ fd' = fd

lemma TablesKept.start (h : (fileMachine D).start s) : TablesKept s := by
  obtain ⟨stdin, stdout, htable, hfiles⟩ := h
  have hlarge : ∀ p fd, ¬ fd ≤ 2 → s.fdTable p fd = none := by
    intro p fd hfd
    rw [htable p]
    dsimp only
    rw [if_neg (by omega), if_neg hfd]
  refine ⟨fun p fd a ha => ?_, fun p fd hfd => ?_, fun p fd _ _ a hfd ha => ?_⟩
  · have hfd : fd ≤ 2 := by
      by_contra hfd
      rw [hlarge p fd hfd] at ha
      cases ha
    have hstd : a = stdin ∨ a = stdout := by
      rw [htable p] at ha
      dsimp only at ha
      split_ifs at ha
      · exact .inl (some_inj.mp ha).symm
      · exact .inr (some_inj.mp ha).symm
    rw [hfiles a]
    split_ifs with h1 h2
    · exact ⟨_, rfl, rfl⟩
    · exact ⟨_, rfl, rfl⟩
    · exact absurd hstd (not_or.mpr ⟨h1, h2⟩)
  · rw [htable p]
    dsimp only
    split_ifs <;> exact some_ne_none _
  · rw [hlarge p fd hfd] at ha
    cases ha

lemma setEntry_same (s : SysState W) (p fd : Nat) (e : Option Nat) :
    (s.setEntry p fd e).fdTable p fd = e := by simp [SysState.setEntry]

lemma setEntry_other {p' fd' : Nat} (s : SysState W) (e : Option Nat) (h : (p', fd') ≠ (p, fd)) :
    (s.setEntry p fd e).fdTable p' fd' = s.fdTable p' fd' := by
  simp only [SysState.setEntry]
  by_cases hp : p' = p
  · subst hp
    have hfd : fd' ≠ fd := fun heq => h (by rw [heq])
    rw [update_self, update_of_ne hfd]
  · rw [update_of_ne hp]

/-- A new position. -/
lemma TablesKept.seek (h : TablesKept s) (hf : s.files a = some f) (position : Nat) :
    TablesKept (s.setFile a (some { f with position := position })) := by
  refine ⟨fun p fd a' ha' => ?_, h.std, h.apart⟩
  obtain ⟨f', hf', hops⟩ := h.live p fd a' ha'
  by_cases heq : a' = a
  · subst heq
    cases hf.symm.trans hf'
    exact ⟨_, update_self .., hops⟩
  · exact ⟨f', (update_of_ne heq _ _).trans hf', hops⟩

lemma TablesKept.world (h : TablesKept s) (w : W) : TablesKept { s with world := w } :=
  ⟨h.live, h.std, h.apart⟩

/-- An entry behind the first three is written, and the file that no other entry has. -/
lemma TablesKept.entry {e : Option Nat} {f : Option File} (h : TablesKept s) (hfd : ¬ fd ≤ 2)
    (hother : ∀ p' fd', s.fdTable p' fd' = some a → (p', fd') = (p, fd))
    (he : ∀ a', e = some a' → a' = a ∧ ∃ g, f = some g ∧ g.ops = .dfs ∧ g.privateData ≠ none) :
    TablesKept ((s.setEntry p fd e).setFile a f) := by
  have hcases : ∀ p' fd' a', (s.setEntry p fd e).fdTable p' fd' = some a' →
      ((p', fd') = (p, fd) ∧ e = some a') ∨ (a' ≠ a ∧ s.fdTable p' fd' = some a') := by
    intro p' fd' a' ha'
    by_cases heq : (p', fd') = (p, fd)
    · cases heq
      rw [setEntry_same] at ha'
      exact .inl ⟨rfl, ha'⟩
    · rw [setEntry_other s _ heq] at ha'
      exact .inr ⟨fun h1 => heq (hother p' fd' (h1 ▸ ha')), ha'⟩
  refine ⟨fun p' fd' a' ha' => ?_, fun p' fd' hle => ?_, fun p1 fd1 p2 fd2 a' hlarge h1 h2 => ?_⟩
  · rcases hcases p' fd' a' ha' with ⟨heq, hnew⟩ | ⟨hne, hold⟩
    · cases heq
      obtain ⟨rfl, g, rfl, hops⟩ := he a' hnew
      refine ⟨g, update_self .., ?_⟩
      rw [if_neg hfd]
      exact hops
    · obtain ⟨f, hf, hops⟩ := h.live p' fd' a' hold
      exact ⟨f, (update_of_ne hne _ _).trans hf, hops⟩
  · have hne : (p', fd') ≠ (p, fd) := by
      intro heq
      obtain ⟨-, rfl⟩ := Prod.mk.inj heq
      exact hfd hle
    exact (setEntry_other s _ hne).trans_ne (h.std p' fd' hle)
  · rcases hcases p1 fd1 a' h1 with ⟨heq1, hnew⟩ | ⟨hne1, hold1⟩ <;>
      rcases hcases p2 fd2 a' h2 with ⟨heq2, hnew'⟩ | ⟨hne2, hold2⟩
    · exact Prod.mk.inj (heq2.trans heq1.symm)
    · exact absurd (he a' hnew).1 hne2
    · exact absurd (he a' hnew').1 hne1
    · exact h.apart p1 fd1 p2 fd2 a' hlarge hold1 hold2

lemma TablesKept.opened (h : TablesKept s) (hnone : s.fdTable p fd = none)
    (hfresh : s.files a = none ∧ ∀ p fd, s.fdTable p fd ≠ some a) (fp : List UInt8) (flags : Nat)
    (inode : Inode) :
    TablesKept ((s.setEntry p fd (some a)).setFile a (some ⟨fp, .dfs, flags, 0, some inode⟩)) := by
  refine h.entry (fun hle => h.std p fd hle hnone)
    (fun p' fd' hold => absurd hold (hfresh.2 p' fd')) fun a' ha' => ?_
  exact ⟨(some.inj ha').symm, _, rfl, rfl, some_ne_none inode⟩

lemma TablesKept.closed (h : TablesKept s) (hfd : ¬ fd ≤ 2) (ha : s.fdTable p fd = some a) :
    TablesKept ((s.setFile a none).setEntry p fd none) := by
  refine h.entry hfd (fun p' fd' hold => ?_) fun a' ha' => nomatch ha'
  obtain ⟨rfl, rfl⟩ := h.apart p fd p' fd' a hfd ha hold
  rfl

/-! ## One call -/

/-- How a call on the file at an entry may end. -/
structure CallSpec (s : SysState W) (p fd a : Nat) (o : Outcome W) : Prop where
  safe : (∃ s' ret, o = .returned s' ret (some a) ∧ OnlyFile s p fd a s') ∨
    o = .fault (.noReturn (some a)) ∨ ∃ ret, o = .failed ret
  kept : ∀ s' ret file, o = .returned s' ret file → TablesKept s'

lemma OnlyFile.setFile (s : SysState W) (p fd a : Nat) (f : Option File) :
    OnlyFile s p fd a (s.setFile a f) :=
  ⟨fun _ hne => update_of_ne hne _ _, fun _ _ _ => rfl⟩

/-- The call keeps the tables, and is safe exactly under the condition. -/
structure SafeIff (s : SysState W) (p fd : Nat) (o : Outcome W) (valid : Prop) : Prop where
  kept : ∀ s' ret file, o = .returned s' ret file → TablesKept s'
  safe : o.InBounds ∧ (Operates s p fd o ∨ ∃ ret, o = .failed ret) ↔ valid

section

variable {valid : Prop}

/-- The calls with a descriptor, once they have the file. -/
lemma CallSpec.safeIff (hspec : CallSpec s p fd a o) (hfd : fd < maxFd)
    (ha : s.fdTable p fd = some a) (hf : s.files a = some f) (hvalid : valid) :
    SafeIff s p fd o valid := by
  refine ⟨hspec.kept, iff_of_true ?_ hvalid⟩
  rcases hspec.safe with ⟨s', ret, rfl, honly⟩ | rfl | ⟨ret, rfl⟩
  · exact ⟨trivial, .inl ⟨a, f, hfd, ha, hf, .inl ⟨s', ret, rfl, honly⟩⟩⟩
  · exact ⟨trivial, .inl ⟨a, f, hfd, ha, hf, .inr (.inl rfl)⟩⟩
  · exact ⟨trivial, .inr ⟨ret, rfl⟩⟩

lemma safeIff_failed (ret : Nat) (hvalid : valid) : SafeIff s p fd (.failed ret) valid :=
  ⟨fun _ _ _ heq => (nomatch heq), iff_of_true ⟨trivial, .inr ⟨ret, rfl⟩⟩ hvalid⟩

lemma safeIff_fault {e : Fault} (he : ¬ (Outcome.fault e : Outcome W).InBounds) (hvalid : ¬ valid) :
    SafeIff s p fd (.fault e) valid :=
  ⟨fun _ _ _ heq => (nomatch heq), iff_of_false (fun h => he h.1) hvalid⟩

end

section

variable (h : TablesKept s)
include h

lemma TablesKept.closeSpec (ha : s.fdTable p fd = some a) (hstd : ¬ fd ≤ 2) :
    CallSpec s p fd a (.returned ((s.setFile a none).setEntry p fd none) 0 (some a)) := by
  refine ⟨.inl ⟨_, 0, rfl, ⟨fun a' hne => update_of_ne hne _ _,
    fun p' fd' hne => setEntry_other _ _ hne⟩⟩, fun s' ret file heq => ?_⟩
  cases heq
  exact h.closed hstd ha

lemma TablesKept.seekSpec (hf : s.files a = some f) (p fd position ret : Nat) : CallSpec s p fd a
      (.returned (s.setFile a (some { f with position := position })) ret (some a)) := by
  refine ⟨.inl ⟨_, ret, rfl, OnlyFile.setFile s p fd a _⟩, fun s' ret' file heq => ?_⟩
  cases heq
  exact h.seek hf position

/-! ## All calls -/

lemma TablesKept.transfer_iff (mode : Nat) (op : File → Nat → Nat → W → Option (W × Nat × Nat))
    (p fd buf count : Nat) :
    SafeIff s p fd (s.transferCall mode op p fd buf count) (HasFile s p fd) := by
  rw [SysState.transferCall, SysState.index]
  by_cases hfd : fd < maxFd
  · rw [if_pos hfd]
    cases ha : s.fdTable p fd with
    | none => exact safeIff_fault id fun hfile => hfile.2 ha
    | some a =>
      obtain ⟨f, hf, -⟩ := h.live p fd a ha
      refine CallSpec.safeIff ?_ hfd ha hf ⟨hfd, by rw [ha]; exact some_ne_none a⟩
      simp only [SysState.deref, hf]
      split_ifs
      · cases hop : op f buf count s.world with
        | none => exact ⟨.inr (.inl rfl), fun _ _ _ heq => nomatch heq⟩
        | some r =>
          obtain ⟨w, position, ret⟩ := r
          refine ⟨.inl ⟨_, ret, rfl, ⟨fun _ hne => update_of_ne hne _ _,
            fun _ _ _ => rfl⟩⟩, fun s' ret' file heq => ?_⟩
          cases heq
          exact (h.seek hf position).world w
      · refine ⟨.inl ⟨s, 0, rfl, ⟨fun _ _ => rfl, fun _ _ _ => rfl⟩⟩, fun s' ret' file heq => ?_⟩
        cases heq
        exact h
  · rw [if_neg hfd]
    exact safeIff_fault id fun hfile => hfd hfile.1

lemma TablesKept.checked_iff (hbody : ∀ a f, s.fdTable p fd = some a → s.files a = some f →
      ¬ fd ≤ 2 → f.ops = .dfs → f.privateData ≠ none → CallSpec s p fd a (body a f)) :
    SafeIff s p fd (s.checked p fd body) (fd ≠ maxFd) := by
  rw [SysState.checked]
  by_cases hstd : fd ≤ 2
  · rw [if_pos hstd]
    obtain ⟨a, ha⟩ := ne_none_iff_exists'.mp (h.std p fd hstd)
    obtain ⟨f, hf, hops⟩ := h.live p fd a ha
    rw [if_pos hstd] at hops
    have hfd : fd < maxFd := lt_of_le_of_lt hstd (by decide)
    refine ⟨fun s' ret file heq => ?_,
      iff_of_true ⟨trivial, .inl ⟨a, f, hfd, ha, hf, .inr (.inr ⟨hops, rfl⟩)⟩⟩ hfd.ne⟩
    cases heq
    exact h
  rw [if_neg hstd]
  by_cases hlarge : maxFd < fd
  · rw [if_pos hlarge]
    exact safeIff_failed _ hlarge.ne'
  rw [if_neg hlarge, SysState.index]
  by_cases hfd : fd < maxFd
  · rw [if_pos hfd]
    cases ha : s.fdTable p fd with
    | none => exact safeIff_failed _ hfd.ne
    | some a =>
      obtain ⟨f, hf, hops⟩ := h.live p fd a ha
      rw [if_neg hstd] at hops
      simp only [SysState.deref, hf]
      exact (hbody a f ha hf hstd hops.1 hops.2).safeIff hfd ha hf hfd.ne
  · rw [if_neg hfd]
    exact safeIff_fault id fun hne => hne (by omega)

lemma TablesKept.lseek_iff (p fd offset whence : Nat) :
    SafeIff s p fd (s.lseek p fd offset whence) (fd ≠ maxFd) := by
  refine h.checked_iff fun a f ha hf _ _ hdata => ?_
  obtain ⟨inode, hinode⟩ := ne_none_iff_exists'.mp hdata
  match whence with
  | 0 => exact h.seekSpec hf p fd _ _
  | 1 => exact h.seekSpec hf p fd _ _
  | 2 =>
    have hspec := h.seekSpec hf p fd (sub64 inode.size offset) (toInt offset)
    simp only [hinode] at hspec ⊢
    exact hspec
  | _ + 3 => exact ⟨.inr (.inr ⟨_, rfl⟩), fun _ _ _ heq => nomatch heq⟩

lemma TablesKept.close_iff (p fd : Nat) : SafeIff s p fd (s.close p fd) (fd ≠ maxFd) := by
  refine h.checked_iff fun a f ha _ hstd hops _ => ?_
  rw [hops]
  exact h.closeSpec ha hstd

lemma TablesKept.fsync_iff (D : Drivers W) (p fd : Nat) :
    SafeIff s p fd (s.fsync D p fd) (fd ≠ maxFd) := by
  refine h.checked_iff fun a f _ _ _ hops _ => ?_
  rw [hops]
  cases D.sync f s.world with
  | none => exact ⟨.inr (.inl rfl), fun _ _ _ heq => nomatch heq⟩
  | some r =>
    refine ⟨.inl ⟨_, _, rfl, ⟨fun _ _ => rfl, fun _ _ _ => rfl⟩⟩, fun s' ret file heq => ?_⟩
    cases heq
    exact h.world r.1

lemma TablesKept.open_iff (D : Drivers W) (p : Nat) (fp : List UInt8) (flags : Nat)
    (block : Option Nat) : ((Call.open fp flags block).Fresh s →
      ∀ s' ret file, s.open D p fp flags block = .returned s' ret file → TablesKept s') ∧
      ((s.open D p fp flags block).InBounds ↔ DescriptorValid D s p (.open fp flags block)) := by
  rw [SysState.open, DescriptorValid]
  cases D.lookup s.world fp with
  | none => exact ⟨fun _ _ _ _ heq => (nomatch heq), iff_of_true trivial fun hne => absurd rfl hne⟩
  | some inode =>
    cases hslot : (List.range maxFd).find? fun i => (s.fdTable p i).isNone with
    | none =>
      refine ⟨fun _ _ _ _ heq => (nomatch heq), iff_of_true trivial fun _ hfree => ?_⟩
      obtain ⟨fd, hfd, hnone⟩ := hfree
      have hno := find?_eq_none.mp hslot fd (mem_range.mpr hfd)
      rw [hnone] at hno
      exact absurd rfl hno
    | some fd =>
      have hfd : fd < maxFd := mem_range.mp (mem_of_find?_eq_some hslot)
      have hnone : s.fdTable p fd = none := by
        have hfound := find?_some hslot
        exact isNone_iff_eq_none.mp hfound
      cases block with
      | none =>
        refine ⟨fun _ _ _ _ heq => (nomatch heq), iff_of_false (fun h => h) fun hvalid => ?_⟩
        exact hvalid (some_ne_none inode) ⟨fd, hfd, hnone⟩ rfl
      | some a =>
        refine ⟨fun hfresh s' ret file heq => ?_, iff_of_true trivial fun _ _ => some_ne_none a⟩
        cases heq
        exact h.opened hnone hfresh _ flags inode

end

lemma mmap_cases (s : SysState W) (p fuel : Nat) (block : Option (Nat × VmArea)) (call : MmapCall) :
    ((∃ ret, s.mmap p fuel block call = .failed ret) ∧ (call.Refused ∨ block = none)) ∨
    (¬ call.Refused ∧ block ≠ none ∧ call.flags &&& mapAnonymous = 0 ∧ maxFd ≤ call.fd ∧
      s.mmap p fuel block call = .fault (.outOfBounds call.fd)) ∨
    (¬ call.Refused ∧ block ≠ none ∧ ∃ entry,
      (call.flags &&& mapAnonymous = 0 → call.fd < maxFd ∧ entry = s.fdTable p call.fd) ∧
      (s.mmap p fuel block call = .fault (.noReturn entry) ∨ ∃ l ret, s.mmap p fuel block call =
          .returned { s with areas := update s.areas p l } ret entry)) := by
  unfold SysState.mmap
  by_cases hrefused : call.Refused
  · rw [if_pos hrefused]
    exact .inl ⟨⟨_, rfl⟩, .inl hrefused⟩
  rw [if_neg hrefused]
  by_cases hblock : block = none
  · rw [if_pos hblock]
    exact .inl ⟨⟨_, rfl⟩, .inr hblock⟩
  rw [if_neg hblock]
  right
  have hmap : ∀ entry, ∀ o : Outcome W,
      o = (match Vm.mmap fuel (s.areas p) (fun _ => entry) block call with
        | none => .fault (.noReturn entry)
        | some (l, ret) => .returned { s with areas := update s.areas p l } ret entry) →
      o = .fault (.noReturn entry) ∨
        ∃ l ret, o = .returned { s with areas := update s.areas p l } ret entry := by
    rintro entry o rfl
    cases Vm.mmap fuel (s.areas p) (fun _ => entry) block call with
    | none => exact .inl rfl
    | some r => exact .inr ⟨r.1, r.2, rfl⟩
  by_cases hanon : call.flags &&& mapAnonymous = 0
  · rw [if_neg (not_not.mpr hanon), SysState.index]
    by_cases hfd : call.fd < maxFd
    · rw [if_pos hfd]
      exact .inr ⟨hrefused, hblock, _, fun _ => ⟨hfd, rfl⟩, hmap _ _ rfl⟩
    · rw [if_neg hfd]
      exact .inl ⟨hrefused, hblock, hanon, not_lt.mp hfd, rfl⟩
  · rw [if_pos hanon]
    exact .inr ⟨hrefused, hblock, none, fun h => absurd h hanon, hmap _ _ rfl⟩

lemma TablesKept.mmap_iff (h : TablesKept s) (D : Drivers W) (p fuel : Nat)
    (block : Option (Nat × VmArea)) (call : MmapCall) :
    (∀ s' ret file, s.mmap p fuel block call = .returned s' ret file → TablesKept s') ∧
      (CallSafe D s p (.mmap fuel block call) ↔ DescriptorValid D s p (.mmap fuel block call)) := by
  rw [CallSafe, SysState.syscall]
  rcases mmap_cases s p fuel block call with
    ⟨⟨ret, hout⟩, hrefused⟩ | ⟨hrefused, hblock, hanon, hfd, hout⟩ |
    ⟨hrefused, hblock, entry, hentry, hout⟩
  · rw [hout]
    refine ⟨fun _ _ _ heq => (nomatch heq),
      iff_of_true ⟨trivial, fun _ _ => .inr ⟨ret, rfl⟩⟩ fun hno hblock => ?_⟩
    rcases hrefused with hyes | hnone
    · exact absurd hyes hno
    · exact absurd hnone hblock
  · rw [hout]
    exact ⟨fun _ _ _ heq => (nomatch heq),
      iff_of_false (fun h => h.1) fun hvalid => not_lt.mpr hfd (hvalid hrefused hblock hanon).1⟩
  · have hkept : ∀ s' ret file, s.mmap p fuel block call = .returned s' ret file →
        TablesKept s' := by
      intro s' ret file heq
      rcases hout with hout | ⟨l, ret', hout⟩
      · rw [hout] at heq
        cases heq
      · rw [hout] at heq
        cases heq
        exact ⟨h.live, h.std, h.apart⟩
    refine ⟨hkept, ⟨fun hsafe _ _ hanon => ?_, fun hvalid => ⟨?_, fun fd hfd => .inl ?_⟩⟩⟩
    · -- without a file there is none that the call has worked on
      have hdesc : (Call.mmap fuel block call).descriptor = some call.fd :=
        if_neg (not_not.mpr hanon)
      rcases hsafe.2 call.fd hdesc with ⟨a, f, hfd, ha, -⟩ | ⟨ret, hfailed⟩
      · exact ⟨hfd, by rw [ha]; exact some_ne_none a⟩
      · rcases hout with hout | ⟨l, ret', hout⟩ <;> rw [hout] at hfailed <;> cases hfailed
    · rcases hout with hout | ⟨l, ret', hout⟩ <;> rw [hout] <;> exact trivial
    · have hanon : call.flags &&& mapAnonymous = 0 := by
        by_contra hanon
        rw [Call.descriptor, if_pos hanon] at hfd
        cases hfd
      rw [Call.descriptor, if_neg (not_not.mpr hanon)] at hfd
      cases hfd
      obtain ⟨hlt, hne⟩ := hvalid hrefused hblock hanon
      obtain ⟨a, ha⟩ := ne_none_iff_exists'.mp hne
      obtain ⟨f, hf, -⟩ := h.live p call.fd a ha
      have hentry : entry = some a := (hentry hanon).2.trans ha
      subst hentry
      refine ⟨a, f, hlt, ha, hf, ?_⟩
      rcases hout with hout | ⟨l, ret', hout⟩
      · exact .inr (.inl hout)
      · exact .inl ⟨_, ret', hout, ⟨fun _ _ => rfl, fun _ _ _ => rfl⟩⟩

lemma SafeIff.call {valid : Prop} (h : SafeIff s p fd (s.syscall D p c) valid)
    (hfd : c.descriptor = some fd) :
    (c.Fresh s → ∀ s' ret file, s.syscall D p c = .returned s' ret file → TablesKept s') ∧
      (CallSafe D s p c ↔ valid) := by
  refine ⟨fun _ => h.kept, ⟨fun hsafe => h.safe.mp ⟨hsafe.1, hsafe.2 fd hfd⟩, fun hvalid => ?_⟩⟩
  obtain ⟨hin, hop⟩ := h.safe.mpr hvalid
  refine ⟨hin, fun fd' hfd' => ?_⟩
  cases hfd.symm.trans hfd'
  exact hop

/-- One call: the tables stay well-formed, and the call is safe exactly if its descriptor
is valid. -/
lemma TablesKept.call (h : TablesKept s) (D : Drivers W) (p : Nat) (c : Call) :
    (c.Fresh s → ∀ s' ret file, s.syscall D p c = .returned s' ret file → TablesKept s') ∧
      (CallSafe D s p c ↔ DescriptorValid D s p c) := by
  cases c with
  | read fd buf count => exact (h.transfer_iff oRdonly D.read p fd buf count).call rfl
  | write fd buf count => exact (h.transfer_iff oWronly D.write p fd buf count).call rfl
  | «open» fp flags block =>
    have hiff := h.open_iff D p fp flags block
    exact ⟨hiff.1, ⟨fun hsafe => hiff.2.mp hsafe.1,
      fun hvalid => ⟨hiff.2.mpr hvalid, fun _ hfd => nomatch hfd⟩⟩⟩
  | close fd => exact (h.close_iff p fd).call rfl
  | lseek fd offset whence => exact (h.lseek_iff p fd offset whence).call rfl
  | fsync fd => exact (h.fsync_iff D p fd).call rfl
  | mmap fuel block call =>
    have hiff := h.mmap_iff D p fuel block call
    exact ⟨fun _ => hiff.1, hiff.2⟩

lemma TablesKept.step {act : Nat × Call} (h : TablesKept s)
    (hstep : (fileMachine D).step s act s') :
    TablesKept s' := by
  obtain ⟨hfresh, ⟨ret, -, rfl⟩ | ⟨ret, file, hout⟩⟩ := hstep
  · exact h
  · exact (h.call D act.1 act.2).1 hfresh s' ret file hout

/-- After any sequence of calls that return, the next call is safe exactly if its descriptor
is valid. -/
theorem descriptor_safe_iff (D : Drivers W) (run : (fileMachine D).Reached (fun _ _ => True) s)
    (p : Nat) (c : Call) : CallSafe D s p c ↔ DescriptorValid D s p c := by
  have hkept : TablesKept s :=
    run.invariant (fun _ hs => TablesKept.start hs) fun _ _ _ h _ hstep => h.step hstep
  exact (hkept.call D p c).2

/-- Drivers without files and without bytes. -/
def noDrivers : Drivers Unit where
  lookup _ _ := none
  read f _ _ w := some (w, f.position, 0)
  write f _ count w := some (w, f.position, count)
  sync _ w := some (w, 0)

/-- A process right after its creation, with the terminal at two addresses. -/
def newProcess : SysState Unit where
  world := ()
  files a := if a = 0x1000 then some ⟨[], .terminal, oRdonly, 0, none⟩
    else if a = 0x2000 then some ⟨[], .terminal, oWronly, 0, none⟩ else none
  fdTable _ fd := if fd = 0 then some 0x1000 else if fd ≤ 2 then some 0x2000 else none
  areas _ := ⟨fun _ => ⟨0, 0, 0, 0, 0, 0, none, none⟩, none⟩

/-- Every path leads to a file of one page. -/
def oneFileDrivers : Drivers Unit := { noDrivers with lookup := fun _ _ => some ⟨1, 4096, 2, 1⟩ }

/-- Process 1 opens a file as descriptor 3. -/
def fileOpened : SysState Unit :=
  (newProcess.setEntry 1 3 (some 0x3000)).setFile 0x3000
    (some ⟨[102], .dfs, oRdonly, 0, some ⟨1, 4096, 2, 1⟩⟩)

lemma newProcess_fresh (fp : List UInt8) (flags : Nat) :
    (Call.open fp flags (some 0x3000)).Fresh newProcess := by
  refine ⟨rfl, fun p fd => ?_⟩
  simp only [newProcess]
  split_ifs <;> decide

lemma fileOpened_reached : (fileMachine oneFileDrivers).Reached (fun _ _ => True) fileOpened :=
  .step (a := (1, .open [102] oRdonly (some 0x3000)))
    (.start ⟨0x1000, 0x2000, fun _ => rfl, fun _ => rfl⟩) trivial
    ⟨newProcess_fresh _ _, .inr ⟨3, none, rfl⟩⟩

/-- Reading from the file. -/
theorem descriptor_safe_opened : DescriptorValid oneFileDrivers fileOpened 1 (.read 3 0x400000 5) ∧
      CallSafe oneFileDrivers fileOpened 1 (.read 3 0x400000 5) := by
  have hvalid : DescriptorValid oneFileDrivers fileOpened 1 (.read 3 0x400000 5) :=
    ⟨by decide, by decide⟩
  exact ⟨hvalid, (descriptor_safe_iff oneFileDrivers fileOpened_reached 1 _).mpr hvalid⟩

/-- `SYS_READ` of a descriptor that was never opened follows a null pointer, and with 128 it
takes `heap_start` for a `FILE`, as `close` does. -/
theorem descriptor_not_checked :
    newProcess.syscall noDrivers 1 (.read 3 0x400000 5) = .fault .null ∧
      newProcess.syscall noDrivers 1 (.read 128 0x400000 5) = .fault (.outOfBounds 128) ∧
      newProcess.syscall noDrivers 1 (.close 128) = .fault (.outOfBounds 128) ∧
      ¬ CallSafe noDrivers newProcess 1 (.read 3 0x400000 5) ∧
      ¬ CallSafe noDrivers newProcess 1 (.read 128 0x400000 5) ∧
      ¬ CallSafe noDrivers newProcess 1 (.close 128) :=
  ⟨rfl, rfl, rfl, fun h => h.1, fun h => h.1, fun h => h.1⟩

end DestinX.Syscall
