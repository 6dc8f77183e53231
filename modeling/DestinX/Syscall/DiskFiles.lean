import DestinX.Syscall.Files
import DestinX.Vm.Sync

/-!
# The drivers behind the file descriptors

`dfs_file_read`, `dfs_file_write` and `dfs_file_sync` of `fs/dfs.c`, and the terminal of
`drivers/video/console.c`. A call at the end of the file does nothing; any other is a request
to `dfs_read` or `dfs_write` within the file.
-/

namespace DestinX.Syscall

open Base Fs Vm Option

/-! ## The drivers -/

/-- What the devices do during a call: the depth that `dfs_read` has, what lies in `read_kring`
from its tail on, and which disk writes fail. -/
structure Devices where
  fuel : Nat
  typed : Nat → UInt8
  fails : Nat → Bool

/-- How many bytes `kring_flush_to_rbuf` copies: up to the end of the line. -/
def flushed (typed : Nat → UInt8) (count : Nat) : Nat :=
  match (List.range count).find? fun i => typed i = 10 with
  | some i => i + 1
  | none => count

def terminalRead (typed : Nat → UInt8) (st : FsState) (buf count : Nat) : Option FsState :=
  if Canonical buf (flushed typed count) then
    some { st with
      mem := fun a =>
        if buf ≤ a ∧ a < buf + flushed typed count then typed (a - buf) else st.mem a }
  else none

/-- The common code of `dfs_file_read` and `dfs_file_write` for the function `call` that it hands
the request on to. It ends with the new position and the result. -/
def fileTransfer {σ : Type} (call : σ → List UInt8 → Nat → Nat → Nat → Option (σ × Nat)) (f : File)
    (buf count : Nat) (st : σ) : Option (σ × Nat × Nat) :=
  f.privateData.bind fun inode =>
    if inode.size ≤ f.position then some (st, f.position, 0)
    else
      (call st f.fp buf f.position (cutSize inode f.position count)).map fun r =>
        if r.2 = minusOne then (r.1, f.position, 0)
        else (r.1, add64 f.position r.2, toInt r.2)

def dfsFileTransfer (mode : Mode) (fuel : Nat) :
    File → Nat → Nat → FsState → Option (FsState × Nat × Nat) := fileTransfer (transfer mode fuel)

def dfsFileRead (fuel : Nat) : File → Nat → Nat → FsState → Option (FsState × Nat × Nat) :=
  dfsFileTransfer readMode fuel

def dfsFileWrite (fuel : Nat) : File → Nat → Nat → FsState → Option (FsState × Nat × Nat) :=
  dfsFileTransfer writeMode fuel

def drivers (d : Devices) : Drivers FsState where
  lookup st fp := st.inodes fp
  read f buf count st :=
    match f.ops with
    | .terminal => (terminalRead d.typed st buf count).map fun st' => (st', f.position, 0)
    | .dfs => dfsFileRead d.fuel f buf count st
  write f buf count st :=
    match f.ops with
    | .terminal => some (st, f.position, toInt count)
    | .dfs => dfsFileWrite d.fuel f buf count st
  sync f st := f.privateData.bind fun inode =>
    (dfsFileSync d.fails st inode).map fun r => (r.1, toInt r.2)

/-! ## The request to the disk file system -/

/-- How many bytes `dfs_file_read` and `dfs_file_write` ask for. -/
def asked (f : File) (inode : Inode) (count : Nat) : Nat := cutSize inode f.position count

variable {st st' : FsState} {f : File} {inode : Inode} {mode : Mode}
  {buf count position ret fuel : Nat}

lemma fileTransfer_call (hdata : f.privateData = some inode) (hlt : f.position < inode.size)
    (hop : dfsFileTransfer mode fuel f buf count st = some (st', position, ret)) :
    ∃ k, transfer mode fuel st f.fp buf f.position (asked f inode count) = some (st', k) := by
  rw [dfsFileTransfer, fileTransfer, hdata, bind_some, if_neg (Nat.not_le.mpr hlt)] at hop
  obtain ⟨⟨w, k⟩, hcall, hr⟩ := map_eq_some_iff.mp hop
  have hw : w = st' := by split_ifs at hr <;> exact (Prod.mk.inj hr).1
  exact ⟨k, hw ▸ hcall⟩

lemma ops_cases (f : File) : f.ops = .terminal ∨ f.ops = .dfs := by cases f.ops <;> simp

end DestinX.Syscall
