import DestinX.Syscall.DiskFiles

/-!
# Requests that are cut at the end of the file

`lseek` moves the position of an open file, and `dfs_file_read` and `dfs_file_write` cut the
count at the end of the file, hand it on and add to the position what was transferred. Between
the calls anything may happen to the rest of the system. The sum of position and count is
computed in 64 bits: when it wraps around, the count is not cut. The result is an `int`.
-/

namespace DestinX.Syscall

open Base Fs Option Prod Nat

/-- A call of `dfs_file_read` or `dfs_file_write`: the position and the count, what was passed to
`dfs_read` or `dfs_write` if it was called, the new position and the result. -/
structure FileCall where
  (position count : Nat)
  passed : Option Nat
  (after ret : Nat)
  deriving DecidableEq, Repr

/-- An open file, with the position of the last `lseek` and the last transfer. -/
structure OpenFile where
  file : File
  world : FsState
  sought : Option Nat
  last : Option FileCall

/-- A call with its count beside the state. -/
def logged {σ : Type} (call : σ → List UInt8 → Nat → Nat → Nat → Option (σ × Nat))
    (s : σ × Option Nat) (fp : List UInt8) (buf offset size : Nat) :
    Option ((σ × Option Nat) × Nat) :=
  (call s.1 fp buf offset size).map fun r => ((r.1, some size), r.2)

/-- `dfs_file_read` or `dfs_file_write`, with the count that `dfs_read` or `dfs_write` got. -/
def loggedTransfer (mode : Mode) (fuel : Nat) (f : File) (buf count : Nat) (world : FsState) :
    Option ((FsState × Option Nat) × Nat × Nat) :=
  fileTransfer (logged (transfer mode fuel)) f buf count (world, none)

/-- The count that is handed on, whatever becomes of the call. -/
def passedOn (f : File) (count : Nat) : Option Nat :=
  (fileTransfer (logged fun _ _ _ _ _ => some ((), 0)) f 0 count ((), none)).bind fun r => r.1.2

/-- Where `lseek` puts the position. -/
def seekPosition (inode : Inode) (position offset : Nat) : Nat → Option Nat
  | 0 => some offset
  | 1 => some (add64 position offset)
  | 2 => some (sub64 inode.size offset)
  | _ => none

inductive FileAction where
  | lseek (offset whence : Nat)
  | transfer (mode : Mode) (fuel buf count : Nat)
  | other

inductive FileStep (inode : Inode) : OpenFile → FileAction → OpenFile → Prop
  | lseek {st : OpenFile} {offset whence position : Nat} (hoffset : offset < 2 ^ 64)
      (hseek : seekPosition inode st.file.position offset whence = some position) :
      FileStep inode st (.lseek offset whence)
        { st with file := { st.file with position := position }, sought := some position }
  | transfer {st : OpenFile} {mode : Mode} {fuel buf count position ret : Nat} {world : FsState}
      {passed : Option Nat} (hcount : count < 2 ^ 64)
      (hcall : loggedTransfer mode fuel st.file buf count st.world =
        some ((world, passed), position, ret)) :
      FileStep inode st (.transfer mode fuel buf count)
        { st with
          file := { st.file with position := position }
          world := world
          last := some ⟨st.file.position, count, passed, position, ret⟩ }
  | other {st : OpenFile} {world : FsState} : FileStep inode st .other { st with world := world }

/-- As `open` leaves it. -/
structure FileStart (inode : Inode) (st : OpenFile) : Prop where
  data : st.file.privateData = some inode
  size : inode.size < 2 ^ 64
  position : st.file.position = 0
  sought : st.sought = none
  last : st.last = none

def openFileMachine (inode : Inode) : Machine OpenFile FileAction where
  start := FileStart inode
  step := FileStep inode

/-- The value of an `int` in a register. -/
def intOf (ret : Nat) : Int := if ret < 2 ^ 63 then ret else ret - 2 ^ 64

/-- The count was cut at the end of the file, nothing was transferred behind it, and the position
moved by the result. -/
structure Clipped (inode : Inode) (t : FileCall) : Prop where
  passed : t.passed =
    if t.position < inode.size then some (min t.count (inode.size - t.position)) else none
  nothing : inode.size ≤ t.position → t.after = t.position ∧ t.ret = 0
  moved : (t.after : Int) = t.position + intOf t.ret

/-- The position is in the file, or where `lseek` has put it. -/
def PositionOk (inode : Inode) (st : OpenFile) : Prop :=
  st.file.position ≤ inode.size ∨ st.sought = some st.file.position

def ClippedAll (inode : Inode) (st : OpenFile) : Prop :=
  (∀ t, st.last = some t → Clipped inode t) ∧ PositionOk inode st

/-- The sum of position and count is less than `2 ^ 64`, and less than `2 ^ 31` bytes are
requested of the file. -/
def FitsInt (inode : Inode) (st : OpenFile) : FileAction → Prop
  | .transfer _ _ _ count => st.file.position < inode.size →
      st.file.position + count < 2 ^ 64 ∧ min count (inode.size - st.file.position) < 2 ^ 31
  | _ => True

/-- The sum is less than `2 ^ 64`, and less than `2 ^ 31` bytes have gone over. -/
def FittedInt (inode : Inode) (st : OpenFile) (st' : OpenFile) : FileAction → Prop
  | .transfer _ _ _ count => st.file.position < inode.size →
      st.file.position + count < 2 ^ 64 ∧ st'.file.position < st.file.position + 2 ^ 31
  | _ => True

variable {inode : Inode} {st st' : OpenFile} {act : FileAction} {f : File} {world world' : FsState}
  {mode : Mode} {fp : List UInt8} {passed : Option Nat}
  {fuel buf count position offset whence ret size n : Nat}

/-- `lseek` on a descriptor of the file. -/
lemma lseek_seekPosition {s : SysState FsState} {p fd a : Nat} (hfd : ¬ fd ≤ 2) (hmax : fd < maxFd)
    (hentry : s.fdTable p fd = some a) (hf : s.files a = some f)
    (hdata : f.privateData = some inode) :
    s.lseek p fd offset whence = match seekPosition inode f.position offset whence with
      | some position =>
        .returned (s.setFile a (some { f with position := position })) (toInt offset) (some a)
      | none => .failed minusOne := by
  rw [SysState.lseek, SysState.checked, if_neg hfd, if_neg (by omega), SysState.index, if_pos hmax,
    hentry, if_neg (some_ne_none a)]
  simp only [SysState.deref, hf]
  rcases whence with _ | _ | _ | n
  · rfl
  · rfl
  · simp only [hdata, seekPosition]
  · rfl

/-! ## Arithmetic -/

/-- The count that is passed on is right exactly when the sum does not wrap around. -/
lemma cutSize_eq_min_iff (hpos : position < inode.size) (hsize : inode.size < 2 ^ 64)
    (hcount : count < 2 ^ 64) : cutSize inode position count = min count (inode.size - position) ↔
      position + count < 2 ^ 64 := by
  rw [cutSize]
  by_cases hcut : inode.size < add64 position count
  · rw [if_pos hcut]
    simp only [add64] at hcut
    simp only [sub64]
    omega
  · rw [if_neg hcut]
    simp only [add64] at hcut
    omega

lemma cutSize_le (hend : offset + size < 2 ^ 64) (hoffset : offset ≤ inode.size) :
    cutSize inode offset size ≤ size := by
  rw [cutSize]
  by_cases hcut : inode.size < add64 offset size
  · rw [if_pos hcut]
    simp only [add64] at hcut
    simp only [sub64]
    omega
  · rw [if_neg hcut]

lemma intOf_toInt_iff (hn : n < 2 ^ 64) : intOf (toInt n) = n ↔ n < 2 ^ 31 := by
  simp only [intOf, toInt]
  split_ifs <;> omega

/-! ## The result of a transfer -/

lemma transfer_le (hend : offset + size < 2 ^ 64)
    (h : transfer mode fuel world fp buf offset size = some (world', n)) : n ≤ size := by
  induction fuel generalizing world size with
  | zero => cases h
  | succ fuel ih =>
    obtain ⟨⟨-, rfl⟩, -⟩ |
      ⟨inode, -, -, hle, -, ⟨-, hhit⟩ | ⟨-, ⟨rfl, -⟩ | ⟨world1, -, hagain⟩⟩⟩ := transfer_ended h
    · exact zero_le size
    · exact (hit_same hhit).1.le
    · exact zero_le size
    · have hcut := cutSize_le hend hle
      exact (ih (by omega) hagain).trans hcut

section

variable (hdata : f.privateData = some inode)
include hdata

lemma passedOn_eq (count : Nat) : passedOn f count =
    if inode.size ≤ f.position then none else some (cutSize inode f.position count) := by
  rw [passedOn, fileTransfer, hdata, bind_some]
  split_ifs <;> rfl

/-- Without the log it is `dfsFileTransfer`, and the log is the count that is handed on. -/
lemma loggedTransfer_some
    (h : loggedTransfer mode fuel f buf count world = some ((world', passed), position, ret)) :
    dfsFileTransfer mode fuel f buf count world = some (world', position, ret) ∧
      passed = passedOn f count := by
  rw [loggedTransfer, fileTransfer, hdata, bind_some] at h
  rw [dfsFileTransfer, fileTransfer, passedOn_eq hdata, hdata, bind_some]
  by_cases hpos : inode.size ≤ f.position
  · rw [if_pos hpos] at h ⊢
    cases h
    exact ⟨rfl, (if_pos hpos).symm⟩
  · rw [if_neg hpos, logged, Option.map_map, map_eq_some_iff] at h
    rw [if_neg hpos, if_neg hpos, map_eq_some_iff]
    obtain ⟨r, hr, heq⟩ := h
    dsimp only [Function.comp_apply] at heq
    split_ifs at heq with hminus
    · cases heq
      exact ⟨⟨r, hr, if_pos hminus⟩, rfl⟩
    · cases heq
      exact ⟨⟨r, hr, if_neg hminus⟩, rfl⟩

lemma fileTransfer_behind (hpos : inode.size ≤ f.position) :
    dfsFileTransfer mode fuel f buf count world = some (world, f.position, 0) := by
  rw [dfsFileTransfer, fileTransfer, hdata, bind_some, if_pos hpos]

lemma fileTransfer_moves (hpos : f.position < inode.size) (hsize : inode.size < 2 ^ 64)
    (hcount : count < 2 ^ 64) (hend : f.position + count < 2 ^ 64)
    (h : dfsFileTransfer mode fuel f buf count world = some (world', position, ret)) :
    ∃ n ≤ min count (inode.size - f.position), position = f.position + n ∧ ret = toInt n := by
  rw [dfsFileTransfer, fileTransfer, hdata, bind_some, if_neg (not_le.mpr hpos)] at h
  obtain ⟨⟨w, n⟩, hcall, hr⟩ := map_eq_some_iff.mp h
  rw [(cutSize_eq_min_iff hpos hsize hcount).mpr hend] at hcall
  have hn : n ≤ min count (inode.size - f.position) := transfer_le (by omega) hcall
  split_ifs at hr with hminus
  · cases hr
    exact ⟨0, by omega, rfl, rfl⟩
  · cases hr
    refine ⟨n, by omega, ?_, rfl⟩
    rw [add64, mod_eq_of_lt (by omega)]

end

/-! ## All runs -/

structure FileInv (inode : Inode) (st : OpenFile) : Prop where
  data : st.file.privateData = some inode
  size : inode.size < 2 ^ 64
  clipped : ClippedAll inode st

lemma FileInv.transfer_iff (hinv : FileInv inode st) (hcount : count < 2 ^ 64)
    (hlogged : loggedTransfer mode fuel st.file buf count st.world =
      some ((world, passed), position, ret)) :
    ClippedAll inode { st with
        file := { st.file with position := position }
        world := world
        last := some ⟨st.file.position, count, passed, position, ret⟩ } ↔
      (st.file.position < inode.size →
        st.file.position + count < 2 ^ 64 ∧ position < st.file.position + 2 ^ 31) := by
  have hsize := hinv.size
  obtain ⟨hcall, rfl⟩ := loggedTransfer_some hinv.data hlogged
  have hpassed := passedOn_eq hinv.data count
  by_cases hpos : st.file.position < inode.size
  · rw [if_neg (not_le.mpr hpos)] at hpassed
    constructor
    · rintro ⟨hlast, -⟩ -
      have hclip := hlast _ rfl
      have hend : st.file.position + count < 2 ^ 64 := by
        have hmin := hclip.passed
        rw [hpassed, if_pos hpos] at hmin
        exact (cutSize_eq_min_iff hpos hsize hcount).mp (some.inj hmin)
      obtain ⟨n, hle, hafter, hret⟩ :=
        fileTransfer_moves hinv.data hpos hsize hcount hend hcall
      have hmoved := hclip.moved
      simp only [hafter, hret, cast_add] at hmoved
      have hint : n < 2 ^ 31 := (intOf_toInt_iff (by omega)).mp (by omega)
      exact ⟨hend, by omega⟩
    · intro hgood
      obtain ⟨hend, hint⟩ := hgood hpos
      obtain ⟨n, hle, hafter, hret⟩ :=
        fileTransfer_moves hinv.data hpos hsize hcount hend hcall
      refine ⟨fun t ht => ?_, .inl ?_⟩
      · cases ht
        constructor
        · rw [if_pos hpos, hpassed, (cutSize_eq_min_iff hpos hsize hcount).mpr hend]
        · exact fun hbehind => absurd hbehind (not_le.mpr hpos)
        · simp only [hafter, hret, cast_add]
          rw [(intOf_toInt_iff (by omega)).mpr (by omega)]
      · show position ≤ inode.size
        omega
  · have hbehind := not_lt.mp hpos
    rw [fileTransfer_behind hinv.data hbehind] at hcall
    obtain ⟨rfl, h⟩ := mk.inj (some.inj hcall)
    cases h
    refine iff_of_true ⟨fun t ht => ?_, hinv.clipped.2⟩ fun h => absurd h hpos
    cases ht
    constructor
    · rw [if_neg hpos, hpassed, if_pos hbehind]
    · exact fun _ => ⟨rfl, rfl⟩
    · simp [intOf]

lemma FileInv.clipped_iff (hinv : FileInv inode st) (hstep : FileStep inode st act st') :
    ClippedAll inode st' ↔ FittedInt inode st st' act := by
  cases hstep with
  | lseek hoffset hseek => exact iff_of_true ⟨hinv.clipped.1, .inr rfl⟩ trivial
  | transfer hcount hcall => exact hinv.transfer_iff hcount hcall
  | other => exact iff_of_true hinv.clipped trivial

/-- What is requested bounds what goes over. -/
lemma FileInv.fitted (hinv : FileInv inode st) (hgood : FitsInt inode st act)
    (hstep : FileStep inode st act st') : FittedInt inode st st' act := by
  cases hstep with
  | lseek hoffset hseek => trivial
  | other => trivial
  | @transfer mode fuel buf count position ret world passed hcount hcall =>
    intro hpos
    obtain ⟨hend, hmin⟩ := hgood hpos
    obtain ⟨n, hle, hafter, -⟩ := fileTransfer_moves hinv.data hpos hinv.size hcount hend
      (loggedTransfer_some hinv.data hcall).1
    refine ⟨hend, ?_⟩
    dsimp only
    omega

lemma FileInv.step (hinv : FileInv inode st) (hgood : FitsInt inode st act)
    (hstep : FileStep inode st act st') : FileInv inode st' := by
  refine ⟨?_, hinv.size, (hinv.clipped_iff hstep).mpr (hinv.fitted hgood hstep)⟩
  cases hstep with
  | lseek hoffset hseek => exact hinv.data
  | transfer hcount hcall => exact hinv.data
  | other => exact hinv.data

lemma fileInv_start (h : FileStart inode st) : FileInv inode st := by
  refine ⟨h.data, h.size, fun t ht => ?_, .inl ?_⟩
  · rw [h.last] at ht
    cases ht
  · rw [h.position]
    exact zero_le _

/-- After any sequence of calls whose sums do not wrap around and whose requests are below
`2 ^ 31` bytes, every count is cut at the end of the file and the position follows the results.
After a next call this is so exactly if its sum does not wrap around and less than `2 ^ 31` bytes
go over. What is handed on is right for a count exactly when the sum does not wrap around. -/
theorem requests_clipped_when (run : (openFileMachine inode).Reached (FitsInt inode) st) :
    ClippedAll inode st ∧
      (∀ act st', (openFileMachine inode).step st act st' →
        (ClippedAll inode st' ↔ FittedInt inode st st' act)) ∧
      ∀ count < 2 ^ 64, st.file.position < inode.size →
        (passedOn st.file count = some (min count (inode.size - st.file.position)) ↔
          st.file.position + count < 2 ^ 64) := by
  have hinv : FileInv inode st :=
    run.invariant (fun _ => fileInv_start) fun _ _ _ h hgood hstep => h.step hgood hstep
  refine ⟨hinv.clipped, fun act st' hstep => hinv.clipped_iff hstep, fun count hcount hpos => ?_⟩
  rw [passedOn_eq hinv.data, if_neg (not_le.mpr hpos), some_inj]
  exact cutSize_eq_min_iff hpos hinv.size hcount

/-- A file of one page that was just opened. -/
def onePage : OpenFile where
  file := ⟨[47, 97], .dfs, oRdwr, 0, some ⟨3, 4096, 10, 1⟩⟩
  world := ⟨[⟨3, 0, 4096, 0⟩], [], [], fun _ => some ⟨3, 4096, 10, 1⟩, fun _ => 0, fun _ => 0⟩
  sought := none
  last := none

lemma onePage_start : (openFileMachine ⟨3, 4096, 10, 1⟩).start onePage :=
  ⟨rfl, by decide, rfl, rfl, rfl⟩

lemma onePage_read :
    (loggedTransfer readMode 1 onePage.file 0x400000 5000 onePage.world).map
      (fun r => (r.1.2, r.2)) = some (some 4096, 4096, 4096) := by decide +kernel

/-- Reading 5000 bytes. -/
theorem requests_clipped_page :
    ∃ st, (openFileMachine ⟨3, 4096, 10, 1⟩).Reached (FitsInt ⟨3, 4096, 10, 1⟩) st ∧
      st.last = some ⟨0, 5000, some 4096, 4096, 4096⟩ ∧ ClippedAll ⟨3, 4096, 10, 1⟩ st := by
  obtain ⟨⟨⟨world, passed⟩, position, ret⟩, hcall, hresult⟩ := map_eq_some_iff.mp onePage_read
  cases hresult
  have hgood : FitsInt ⟨3, 4096, 10, 1⟩ onePage (.transfer readMode 1 0x400000 5000) :=
    fun _ => by decide
  have hrun := Machine.Reached.step (.start onePage_start) hgood (.transfer (by decide) hcall)
  exact ⟨_, hrun, rfl, (requests_clipped_when hrun).1⟩

/-- At position 1, a count of `2 ^ 64 - 1` is passed on as it is. -/
theorem count_not_clipped :
    ∃ st, (openFileMachine ⟨3, 4096, 10, 1⟩).Reached (FitsInt ⟨3, 4096, 10, 1⟩) st ∧
      st.file.position = 1 ∧ passedOn st.file (2 ^ 64 - 1) = some (2 ^ 64 - 1) ∧
      min (2 ^ 64 - 1) (4096 - 1) = 4095 := by
  have hrun := Machine.Reached.step (.start onePage_start) (a := FileAction.lseek 1 0)
    (show FitsInt ⟨3, 4096, 10, 1⟩ onePage (.lseek 1 0) from trivial) (.lseek (by decide) rfl)
  exact ⟨_, hrun, rfl, by decide +kernel, by decide⟩

end DestinX.Syscall
