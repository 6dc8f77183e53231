import DestinX.Fs.ConcurrentMiss
import DestinX.Fs.Sync

/-!
# Writing while pages are written back

`dfs_write` to cached pages, `dfs_file_sync` and `SYS_SYNC` by several threads. A sync waits
inside `ahci_write`, after the device has copied the page. Then it clears `WRITEBACK_FLAG` and,
if the write has succeeded, `DIRTY_FLAG`, also when the page has been written to in the
meantime. A page under writeback is skipped by other syncs.

The run notes for each sync which bytes have been written since it was called: the others have
to be on the disk when it returns 0.
-/

namespace DestinX.Fs

open Base Function List Bool Nat

/-! ## Syncs that wait -/

/-- `dfs_file_sync` for an inode number, or `SYS_SYNC`. -/
inductive SyncCall where
  | file (n : Nat)
  | all
  deriving DecidableEq, Repr

/-- A sync under way: the index of its loop, the failed writes so far, and while it waits
the place of the entry with the success of the write. -/
structure SyncRun where
  call : SyncCall
  (i ret : Nat)
  waiting : Option (Nat × Bool)
  deriving DecidableEq, Repr

/-- `changed t n d` says that byte `d` of the page at place `n` has been written since
thread `t` called its sync. The last field is the sync that the last step ended, if any. -/
structure FlushState where
  fs : FsState
  syncs : Nat → Option SyncRun
  changed : Nat → Nat → Nat → Bool
  returned : Option (Nat × SyncCall × Nat)

section

variable (inodeTable : Nat → Inode)

/-- Where the loop ends. -/
def SyncCall.limit (cache : List CachePage) : SyncCall → Nat
  | .file n => filePages (inodeTable n).size
  | .all => cache.length

/-- The entry that the loop looks at. -/
def SyncCall.entry (cache : List CachePage) (i : Nat) : SyncCall → Option Nat
  | .file n => cache.findIdx? fun c => c.id = (inodeTable n).inodeNum ∧ c.indx = i
  | .all => if i < cache.length then some i else none

/-- The sector that the loop writes to. -/
def SyncCall.lba (i : Nat) (c : CachePage) : SyncCall → Nat
  | .file n => syncSector (inodeTable n) i
  | .all => syncSector (inodeTable c.id) c.indx

/-- The index can be increased: it is an `int` in `dfs_file_sync`. -/
def SyncCall.Counts (i : Nat) : SyncCall → Prop
  | .file _ => i + 1 < 2 ^ 31
  | .all => True

def FlushState.setSync (s : FlushState) (t : Nat) (r : Option SyncRun) : FlushState :=
  { s with syncs := update s.syncs t r, returned := none }

/-- The loop looks at its next entry and skips it, or marks it and lets the device copy
the page. -/
def FlushState.visit (s : FlushState) (t : Nat) (r : SyncRun) (ok : Bool) : FlushState :=
  match r.call.entry inodeTable s.fs.cache r.i with
  | none => s.setSync t (some { r with i := r.i + 1 })
  | some n =>
    match s.fs.cache[n]? with
    | none => s.setSync t (some { r with i := r.i + 1 })
    | some c =>
      if c.dirty ∧ ¬ c.writeback then
        { s.setSync t (some { r with waiting := some (n, ok) }) with
          fs := (ahciWrite (fun _ => !ok) (s.fs.modifyEntry n (·.setFlag writebackFlag))
            (r.call.lba inodeTable r.i c) c.addr).1 }
      else s.setSync t (some { r with i := r.i + 1 })

/-- The wait is over. -/
def FlushState.finish (s : FlushState) (t : Nat) (r : SyncRun) (n : Nat) (ok : Bool) : FlushState :=
  { s.setSync t (some ⟨r.call, r.i + 1, if ok then r.ret else r.ret + 1, none⟩) with
    fs :=
      if ok then
        (s.fs.modifyEntry n (·.clearFlag writebackFlag)).modifyEntry n (·.clearFlag dirtyFlag)
      else s.fs.modifyEntry n (·.clearFlag writebackFlag) }

/-- The bytes that a write has changed are noted for all syncs. -/
def FlushState.wrote (s : FlushState) (fs : FsState) (n offset count : Nat) : FlushState :=
  { s with
    fs := fs
    changed := fun t n' d => s.changed t n' d || (n' = n && offset ≤ d && d < offset + count)
    returned := none }

/-! ## Runs -/

inductive FlushAction where
  | write (fp : List UInt8) (buffer offset size : Nat)
  | start (t : Nat) (call : SyncCall)
  | visit (t : Nat) (ok : Bool)
  | finish (t : Nat)
  | leave (t : Nat)

/-- A write to the first page of a file, which is cached, from a buffer outside the frames;
or a step of a sync. -/
inductive FlushStep : FlushState → FlushAction → FlushState → Prop
  | write {s : FlushState} {fp : List UInt8} {inode : Inode} {buffer offset size n count : Nat}
      {c : CachePage} {fs : FsState} (hfound : s.fs.inodes fp = some inode)
      (hcached : s.fs.cache[n]? = some c) (hkey : c.key = (inode.inodeNum, 0))
      (hpage : offset + size ≤ 4096)
      (hbuffer : ∀ c ∈ s.fs.cache, Apart buffer size (direct c.addr) 4096)
      (hrun : dfsWrite 1 s.fs fp buffer offset size = some (fs, count)) :
      FlushStep s (.write fp buffer offset size) (s.wrote fs n offset count)
  | start {s : FlushState} {t : Nat} {call : SyncCall} (hidle : s.syncs t = none) :
      FlushStep s (.start t call) { s.setSync t (some ⟨call, 0, 0, none⟩) with
          changed := update s.changed t fun _ _ => false }
  | visit {s : FlushState} {t : Nat} {r : SyncRun} {ok : Bool} (hsync : s.syncs t = some r)
      (hrun : r.waiting = none) (hlimit : r.i < r.call.limit inodeTable s.fs.cache)
      (hint : r.call.Counts r.i) :
      FlushStep s (.visit t ok) (s.visit inodeTable t r ok)
  | finish {s : FlushState} {t : Nat} {r : SyncRun} {n : Nat} {ok : Bool}
      (hsync : s.syncs t = some r) (hwait : r.waiting = some (n, ok)) :
      FlushStep s (.finish t) (s.finish t r n ok)
  | leave {s : FlushState} {t : Nat} {r : SyncRun} (hsync : s.syncs t = some r)
      (hrun : r.waiting = none) (hlimit : r.call.limit inodeTable s.fs.cache ≤ r.i) :
      FlushStep s (.leave t) { s.setSync t none with returned := some (t, r.call, r.ret) }

/-- The sectors of a page. -/
def pageSector (c : CachePage) : Nat := syncSector (inodeTable c.id) c.indx

/-- The page is equal to its block. -/
def Stored (fs : FsState) (c : CachePage) : Prop :=
  ∀ d < 4096, fs.disk (pageSector inodeTable c * 512 + d) = fs.mem (direct c.addr + d)

/-- What does not change: inodes at their numbers, one entry and one frame for each page,
and blocks that do not overlap. -/
structure Layout (cache : List CachePage) : Prop where
  number : ∀ n, (inodeTable n).inodeNum = n
  keys : (cache.map CachePage.key).Nodup
  fits : ∀ c ∈ cache, c.addr + 4096 ≤ 2 ^ 47
  frames : ∀ c ∈ cache, ∀ c' ∈ cache, c.key ≠ c'.key →
    Apart (direct c.addr) 4096 (direct c'.addr) 4096
  blocks : ∀ c ∈ cache, ∀ c' ∈ cache, c.key ≠ c'.key →
    Apart (pageSector inodeTable c * 512) 4096 (pageSector inodeTable c' * 512) 4096

/-- Each cached page that is neither dirty nor being written is equal to its block. -/
def CleanStored (s : FlushState) : Prop :=
  ∀ c ∈ s.fs.cache, c.dirty = false → c.writeback = false → Stored inodeTable s.fs c

/-- Nobody syncs yet. Lookups and `ahci_write` take a frame, frame 0 when none is free, and
overwrite it: it is not the frame of a cached page. -/
def flushMachine : Machine FlushState FlushAction where
  start s := Layout inodeTable s.fs.cache ∧
    (∀ c ∈ s.fs.cache, c.addr ≠ 0 ∧ c.addr ∉ s.fs.free) ∧ (∀ c ∈ s.fs.cache, c.writeback = false) ∧
    CleanStored inodeTable s ∧ (∀ t, s.syncs t = none) ∧ s.returned = none
  step := FlushStep inodeTable

/-- The pages that the sync is about, as far as writes go to first pages. -/
def SyncCall.Covers (c : CachePage) : SyncCall → Prop
  | .file n => c.key = (n, 0)
  | .all => True

/-- When the last step was the end of a sync that returns 0, all bytes that were not
written since its call are on the disk. -/
def ReturnedStored (s : FlushState) : Prop :=
  ∀ t call, s.returned = some (t, call, 0) → ∀ n c, s.fs.cache[n]? = some c → call.Covers c →
    ∀ d < 4096, s.changed t n d = false →
      s.fs.disk (pageSector inodeTable c * 512 + d) = s.fs.mem (direct c.addr + d)

/-- A write that copies finds its page not being written back, a sync finds no dirty page
that another is writing back, and a file that is synced has a page. -/
def Undisturbed (s : FlushState) : FlushAction → Prop
  | .write fp buffer offset size => ∀ inode c, s.fs.inodes fp = some inode →
      getPageCache s.fs.cache inode.inodeNum 0 = some c → buffer ≠ 0 → 0 < size →
      offset ≤ inode.size → c.writeback = false
  | .start _ (.file n) => 0 < filePages (inodeTable n).size
  | .visit t _ => ∀ r n c, s.syncs t = some r → r.call.entry inodeTable s.fs.cache r.i = some n →
      s.fs.cache[n]? = some c → c.dirty → c.writeback = false
  | _ => True

end

variable {inodeTable : Nat → Inode} {s s' : FlushState} {act : FlushAction} {fs : FsState}
  {cache cache' : List CachePage} {c c' : CachePage} {f : CachePage → CachePage} {r : SyncRun}
  {fp : List UInt8} {inode : Inode} {ok : Bool} {call : SyncCall}
  {t n n' id k buffer offset size count : Nat}

/-! ## Flags as bits -/

lemma dirty_eq (c : CachePage) : c.dirty = c.flags.testBit 0 := by
  rw [CachePage.dirty, show dirtyFlag = 2 ^ 0 from rfl, and_two_pow]
  cases c.flags.testBit 0 <;> simp

lemma writeback_eq (c : CachePage) : c.writeback = c.flags.testBit 1 := by
  rw [CachePage.writeback, show writebackFlag = 2 ^ 1 from rfl, and_two_pow]
  cases c.flags.testBit 1 <;> simp

lemma setFlag_testBit (c : CachePage) (flag i : Nat) :
    (c.setFlag flag).flags.testBit i = (c.flags.testBit i || flag.testBit i) :=
  testBit_or ..

lemma clearFlag_testBit (c : CachePage) {flag : Nat} (hflag : flag < 2 ^ 64) (i : Nat) :
    (c.clearFlag flag).flags.testBit i = (c.flags.testBit i &&
      (decide (i < 64) && !flag.testBit i)) := by
  rw [CachePage.clearFlag, testBit_and, testBit_two_pow_sub_succ hflag]

lemma setFlag_writebackFlag (c : CachePage) :
    (c.setFlag writebackFlag).dirty = c.dirty ∧ (c.setFlag writebackFlag).writeback = true := by
  rw [dirty_eq, dirty_eq, writeback_eq, setFlag_testBit, setFlag_testBit]
  simp [writebackFlag, testBit, shiftRight_eq_div_pow]

lemma setFlag_dirtyFlag (c : CachePage) :
    (c.setFlag dirtyFlag).dirty = true ∧ (c.setFlag dirtyFlag).writeback = c.writeback := by
  rw [dirty_eq, writeback_eq, writeback_eq, setFlag_testBit, setFlag_testBit]
  simp [dirtyFlag, testBit, shiftRight_eq_div_pow]

lemma clearFlag_writebackFlag (c : CachePage) :
    (c.clearFlag writebackFlag).dirty = c.dirty ∧
      (c.clearFlag writebackFlag).writeback = false := by
  have hflag : writebackFlag < 2 ^ 64 := by decide
  rw [dirty_eq, dirty_eq, writeback_eq, clearFlag_testBit c hflag, clearFlag_testBit c hflag]
  simp [writebackFlag, testBit, shiftRight_eq_div_pow]

/-! ## Places on the list -/

lemma places_modify (hf : ∀ c, place (f c) = place c) (cache : List CachePage) (n : Nat) :
    places (cache.modify n f) = places cache := by
  apply ext_getElem?
  intro m
  simp only [places, getElem?_map, getElem?_modify]
  cases cache[m]? with
  | none => simp
  | some c =>
    by_cases hm : n = m
    · simp [hm, hf]
    · simp [hm]

/-- The entries after one was changed. -/
lemma modify_cases (hc : cache[n]? = some c) (hc' : (cache.modify n f)[n']? = some c') :
    (n' = n ∧ c' = f c) ∨ (n' ≠ n ∧ cache[n']? = some c') := by
  by_cases hne : n = n'
  · subst hne
    rw [getElem?_modify_eq, hc] at hc'
    exact .inl ⟨rfl, (Option.some_inj.mp hc').symm⟩
  · rw [getElem?_modify_ne _ _ hne] at hc'
    exact .inr ⟨fun heq => hne heq.symm, hc'⟩

/-- Entries at the same place are for the same page and have the same frame. -/
lemma getElem?_of_places (hp : places cache' = places cache) (hc : cache'[n]? = some c) :
    ∃ c0, cache[n]? = some c0 ∧ place c0 = place c := by
  have hplace : (places cache)[n]? = some (place c) := by
    rw [← hp, places, getElem?_map, hc]
    rfl
  rw [places, getElem?_map] at hplace
  exact Option.map_eq_some_iff.mp hplace

lemma pageSector_congr (h : place c = place c') :
    pageSector inodeTable c = pageSector inodeTable c' := by
  have hkey : (c.id, c.indx) = (c'.id, c'.indx) := congrArg Prod.fst h
  obtain ⟨hid, hindx⟩ := Prod.mk.inj hkey
  rw [pageSector, pageSector, hid, hindx]

/-- One byte of the page is equal to that of its block. -/
def StoredByte (inodeTable : Nat → Inode) (fs : FsState) (c : CachePage) (d : Nat) : Prop :=
  fs.disk (pageSector inodeTable c * 512 + d) = fs.mem (direct c.addr + d)

lemma StoredByte.congr {d : Nat} (h : StoredByte inodeTable fs c d) (hplace : place c = place c') :
    StoredByte inodeTable fs c' d := by
  have haddr : c.addr = c'.addr := congrArg Prod.snd hplace
  rw [StoredByte, ← pageSector_congr hplace, ← haddr]
  exact h

lemma Stored.congr (h : Stored inodeTable fs c) (hplace : place c = place c') :
    Stored inodeTable fs c' := fun d hd => StoredByte.congr (h d hd) hplace

lemma Layout.of_places (h : Layout inodeTable cache) (hp : places cache' = places cache) :
    Layout inodeTable cache' := by
  have hmem : ∀ c ∈ cache', ∃ c0 ∈ cache, c0.addr = c.addr ∧ c0.key = c.key ∧
      pageSector inodeTable c0 = pageSector inodeTable c := by
    intro c hc
    have hplace : place c ∈ places cache := hp ▸ mem_map_of_mem hc
    obtain ⟨c0, hc0, hplace⟩ := mem_map.mp hplace
    exact ⟨c0, hc0, congrArg Prod.snd hplace, congrArg Prod.fst hplace, pageSector_congr hplace⟩
  have hkeys : cache'.map CachePage.key = cache.map CachePage.key := by
    have h1 := congrArg (map Prod.fst) hp
    simp only [places, map_map] at h1
    exact h1
  refine ⟨h.number, hkeys ▸ h.keys, fun c hc => ?_, fun c hc c' hc' hne => ?_,
    fun c hc c' hc' hne => ?_⟩
  · obtain ⟨c0, hc0, haddr, -⟩ := hmem c hc
    exact haddr ▸ h.fits c0 hc0
  · obtain ⟨c0, hc0, haddr, hkey, -⟩ := hmem c hc
    obtain ⟨c0', hc0', haddr', hkey', -⟩ := hmem c' hc'
    rw [← haddr, ← haddr']
    exact h.frames c0 hc0 c0' hc0' fun heq => hne (hkey.symm.trans (heq.trans hkey'))
  · obtain ⟨c0, hc0, -, hkey, hsector⟩ := hmem c hc
    obtain ⟨c0', hc0', -, hkey', hsector'⟩ := hmem c' hc'
    rw [← hsector, ← hsector']
    exact h.blocks c0 hc0 c0' hc0' fun heq => hne (hkey.symm.trans (heq.trans hkey'))

lemma Layout.key_ne (h : Layout inodeTable cache) (hc : cache[n]? = some c)
    (hc' : cache[n']? = some c') (hne : n ≠ n') : c.key ≠ c'.key := by
  intro heq
  have hn : n < (cache.map CachePage.key).length := by
    rw [length_map]
    exact (List.getElem?_eq_some_iff.mp hc).1
  refine hne ((getElem?_inj hn h.keys).mp ?_)
  rw [getElem?_map, getElem?_map, hc, hc', Option.map_some, Option.map_some, heq]

lemma getPageCache_of_getElem? (h : (cache.map CachePage.key).Nodup) (hc : cache[n]? = some c)
    (hkey : c.key = (id, k)) : getPageCache cache id k = some c := by
  have hmem : c ∈ cache := mem_of_getElem? hc
  obtain ⟨hid, hindx⟩ := Prod.mk.inj hkey
  cases hfind : getPageCache cache id k with
  | none =>
    have hno := find?_eq_none.mp hfind c hmem
    rw [decide_eq_true_eq] at hno
    exact absurd ⟨hid, hindx⟩ hno
  | some c' =>
    obtain ⟨hmem', hid', hindx'⟩ := getPageCache_mem hfind
    have heq : c'.key = c.key := by rw [CachePage.key, hid', hindx', hkey]
    rw [inj_on_of_nodup_map h hmem' hmem heq]

lemma markDirty_eq_modify (h : (cache.map CachePage.key).Nodup) (hc : cache[n]? = some c)
    (hkey : c.key = (id, k)) : markDirty id k cache = cache.modify n (·.setFlag dirtyFlag) := by
  induction cache generalizing n with
  | nil => cases hc
  | cons c0 cache ih =>
    rw [map_cons, nodup_cons] at h
    obtain ⟨hid, hindx⟩ := Prod.mk.inj hkey
    cases n with
    | zero =>
      obtain rfl : c0 = c := Option.some_inj.mp hc
      rw [markDirty, if_pos ⟨hid, hindx⟩]
      rfl
    | succ n =>
      have hne : ¬ (c0.id = id ∧ c0.indx = k) := by
        rintro ⟨rfl, rfl⟩
        exact h.1 (mem_map.mpr ⟨c, mem_of_getElem? hc, hkey⟩)
      rw [markDirty, if_neg hne, ih h.2 hc]
      rfl

/-! ## The loops of the syncs -/

/-- The loop is past the page. -/
def SyncCall.Passed (i n : Nat) (c : CachePage) : SyncCall → Prop
  | .file m => c.id = m ∧ c.indx < i
  | .all => n < i

/-- Only the pages of the entries count. -/
lemma entry_congr (hp : places cache' = places cache) (i : Nat) (call : SyncCall) :
    call.entry inodeTable cache' i = call.entry inodeTable cache i := by
  cases call with
  | file m =>
    have hmap : ∀ l : List CachePage,
        l.findIdx? (fun c => c.id = (inodeTable m).inodeNum ∧ c.indx = i) =
          (places l).findIdx? fun p => p.1.1 = (inodeTable m).inodeNum ∧ p.1.2 = i := by
      intro l
      rw [places, findIdx?_map]
      rfl
    simp only [SyncCall.entry]
    rw [hmap, hmap, hp]
  | all =>
    have hlength : cache'.length = cache.length := by simpa [places] using congrArg length hp
    simp only [SyncCall.entry, hlength]

lemma SyncCall.Passed.congr {i : Nat} (h : call.Passed i n c) (hplace : place c' = place c) :
    call.Passed i n c' := by
  have hkey : (c'.id, c'.indx) = (c.id, c.indx) := congrArg Prod.fst hplace
  obtain ⟨hid, hindx⟩ := Prod.mk.inj hkey
  cases call with
  | file m => exact ⟨hid.trans h.1, hindx ▸ h.2⟩
  | all => exact h

/-- The loop is past the same pages, and one more after each round. -/
lemma Layout.passed_succ (h : Layout inodeTable cache) {i : Nat} (hc : cache[n]? = some c)
    (hpassed : call.Passed (i + 1) n c) :
    call.Passed i n c ∨ call.entry inodeTable cache i = some n := by
  cases call with
  | file m =>
    obtain ⟨hid, hindx⟩ := hpassed
    rcases Nat.lt_succ_iff_lt_or_eq.mp hindx with hlt | heq
    · exact .inl ⟨hid, hlt⟩
    · right
      simp only [SyncCall.entry, h.number]
      cases hfind : cache.findIdx? fun c => c.id = m ∧ c.indx = i with
      | none =>
        have hno := findIdx?_eq_none_iff.mp hfind c (mem_of_getElem? hc)
        exact absurd ⟨hid, heq⟩ (of_decide_eq_false hno)
      | some n' =>
        obtain ⟨hn', hkey, -⟩ := findIdx?_eq_some_iff_getElem.mp hfind
        obtain ⟨hid', hindx'⟩ := of_decide_eq_true hkey
        by_contra hne
        refine h.key_ne (getElem?_eq_getElem hn') hc (fun h => hne (congrArg some h)) ?_
        rw [CachePage.key, CachePage.key, hid', hindx', hid, heq]
  | all =>
    rcases Nat.lt_succ_iff_lt_or_eq.mp hpassed with hlt | heq
    · exact .inl hlt
    · right
      subst heq
      exact if_pos (List.getElem?_eq_some_iff.mp hc).1

lemma Layout.lba_eq (h : Layout inodeTable cache) {i : Nat}
    (hentry : call.entry inodeTable cache i = some n) (hc : cache[n]? = some c) :
    call.lba inodeTable i c = pageSector inodeTable c := by
  cases call with
  | file m =>
    obtain ⟨hn, hkey, -⟩ := findIdx?_eq_some_iff_getElem.mp hentry
    obtain ⟨hid, hindx⟩ := of_decide_eq_true hkey
    rw [getElem?_eq_getElem hn] at hc
    cases hc
    rw [h.number] at hid
    simp only [SyncCall.lba, pageSector, hid, hindx]
  | all => rfl

/-! ## Writes -/

/-- A write to a cached page does nothing, or it copies and marks the page. -/
lemma write_cases (hkeys : (s.fs.cache.map CachePage.key).Nodup)
    (hfound : s.fs.inodes fp = some inode) (hcached : s.fs.cache[n]? = some c)
    (hkey : c.key = (inode.inodeNum, 0)) (hpage : offset + size ≤ 4096)
    (hfits : c.addr + 4096 ≤ 2 ^ 47)
    (hrun : dfsWrite 1 s.fs fp buffer offset size = some (fs, count)) :
    (fs = s.fs ∧ count = 0) ∨ ((buffer ≠ 0 ∧ 0 < size ∧ offset ≤ inode.size) ∧ count = size ∧
        fs.cache = s.fs.cache.modify n (·.setFlag dirtyFlag) ∧ fs.disk = s.fs.disk ∧
        ∀ a, ¬ (direct c.addr + offset ≤ a ∧ a < direct c.addr + (offset + size)) →
          fs.mem a = s.fs.mem a) := by
  rw [dfsWrite, transfer] at hrun
  unfold transferBody at hrun
  by_cases hargs : buffer = 0 ∨ size = 0
  · rw [if_pos hargs] at hrun
    cases hrun
    exact .inl ⟨rfl, rfl⟩
  rw [if_neg hargs, hfound, Option.bind_some] at hrun
  by_cases hbehind : inode.size < offset
  · rw [if_pos hbehind] at hrun
    cases hrun
    exact .inl ⟨rfl, rfl⟩
  obtain ⟨hnull, hzero⟩ := not_or.mp hargs
  have hs : 0 < size := pos_of_ne_zero hzero
  have hc := getPageCache_of_getElem? hkeys hcached hkey
  rw [if_neg hbehind, firstPage_count hs hpage, (firstPage_start hs hpage).1, miss_one, hc] at hrun
  obtain ⟨rfl, rfl⟩ := Prod.mk.inj (hit_firstPage hs hpage hc hrun)
  refine .inr ⟨⟨hnull, hs, not_lt.mp hbehind⟩, rfl, markDirty_eq_modify hkeys hcached hkey, rfl,
    fun a ha => ?_⟩
  have hdst : add64 (direct c.addr) offset = direct c.addr + offset := by
    rw [direct_eq hfits]
    exact mod_eq_of_lt (by omega)
  simp only [writeMode, runCopies, foldl_cons, foldl_nil, hdst]
  exact copyBytes_outside (by omega)

/-! ## The invariant -/

/-- The bytes of the page that have not been written since the call of thread `t` are on the
disk. -/
def OldStored (inodeTable : Nat → Inode) (s : FlushState) (t n : Nat) (c : CachePage) : Prop :=
  ∀ d < 4096, s.changed t n d = false →
    s.fs.disk (pageSector inodeTable c * 512 + d) = s.fs.mem (direct c.addr + d)

lemma Stored.old (h : Stored inodeTable s.fs c) (t n : Nat) : OldStored inodeTable s t n c :=
  fun d hd _ => h d hd

lemma returnedStored_of_none (h : s.returned = none) : ReturnedStored inodeTable s := by
  intro t call hr
  rw [h] at hr
  cases hr

structure FlushKept (inodeTable : Nat → Inode) (s : FlushState) : Prop where
  layout : Layout inodeTable s.fs.cache
  clean : CleanStored inodeTable s
  busy : ∀ c ∈ s.fs.cache, c.writeback → c.dirty
  waiting : ∀ t r n ok, s.syncs t = some r → r.waiting = some (n, ok) →
    r.call.entry inodeTable s.fs.cache r.i = some n ∧
      ∃ c, s.fs.cache[n]? = some c ∧ c.writeback ∧ (ok → Stored inodeTable s.fs c)
  alone : ∀ t t' r r' n ok ok', s.syncs t = some r → s.syncs t' = some r' →
    r.waiting = some (n, ok) → r'.waiting = some (n, ok') → t = t'
  pages : ∀ t r n, s.syncs t = some r → r.call = .file n → 0 < filePages (inodeTable n).size
  passed : ∀ t r, s.syncs t = some r → r.ret = 0 → ∀ n c, s.fs.cache[n]? = some c →
    r.call.Passed r.i n c → OldStored inodeTable s t n c
  returned : ReturnedStored inodeTable s

lemma FlushKept.start (h : (flushMachine inodeTable).start s) : FlushKept inodeTable s := by
  obtain ⟨hlayout, -, hidle, hclean, hsyncs, hreturned⟩ := h
  have hno : ∀ t r, s.syncs t ≠ some r := by
    intro t r hr
    rw [hsyncs t] at hr
    cases hr
  refine ⟨hlayout, hclean, fun c hc hw => ?_, fun t r _ _ hr => absurd hr (hno t r),
    fun t _ r _ _ _ _ hr => absurd hr (hno t r), fun t r _ hr => absurd hr (hno t r),
    fun t r hr => absurd hr (hno t r), fun t call hr => ?_⟩
  · rw [hidle c hc] at hw
    cases hw
  · rw [hreturned] at hr
    cases hr

/-- Whoever waits after thread `t0` went to a run that waits for nothing did so before. -/
lemma setSync_waits {t0 : Nat} {r' : SyncRun} (hidle : r'.waiting = none)
    (h : update s.syncs t0 (some r') t = some r) (hwait : r.waiting = some (n, ok)) :
    t ≠ t0 ∧ s.syncs t = some r := by
  rcases update_eq_cases h with ⟨-, heq⟩ | hold
  · cases heq
    rw [hidle] at hwait
    cases hwait
  · exact hold

lemma FlushKept.alone_setSync (h : FlushKept inodeTable s) {r' : SyncRun}
    (hidle : r'.waiting = none) : ∀ u u' q q' n ok ok', update s.syncs t (some r') u = some q →
      update s.syncs t (some r') u' = some q' →
      q.waiting = some (n, ok) → q'.waiting = some (n, ok') → u = u' := by
  intro u u' q q' n ok ok' hq hq' hw hw'
  exact h.alone u u' q q' n ok ok' (setSync_waits hidle hq hw).2
    (setSync_waits hidle hq' hw').2 hw hw'

lemma FlushKept.pages_setSync (h : FlushKept inodeTable s) {r' : SyncRun}
    (hcall : ∀ n, r'.call = .file n → 0 < filePages (inodeTable n).size) :
    ∀ u q n, update s.syncs t (some r') u = some q → q.call = .file n →
      0 < filePages (inodeTable n).size := by
  intro u q n hq hfile
  rcases update_eq_cases hq with ⟨-, heq⟩ | ⟨-, hold⟩
  · cases heq
    exact hcall n hfile
  · exact h.pages u q n hold hfile

/-- A copy that succeeds brings the page to its sectors, and the other sectors stay. -/
lemma ahciWrite_copied (fs : FsState) (ok : Bool) (lba addr : Nat) :
    (∀ d < 4096, (ahciWrite (fun _ => !ok) fs lba addr).1.disk (lba * 512 + d) =
        if ok then fs.mem (direct addr + d) else fs.disk (lba * 512 + d)) ∧
      ∀ p, ¬ (lba * 512 ≤ p ∧ p < lba * 512 + 4096) →
        (ahciWrite (fun _ => !ok) fs lba addr).1.disk p = fs.disk p := by
  cases ok with
  | true =>
    refine ⟨fun d hd => ?_, fun p hp => if_neg hp⟩
    simp only [ahciWrite, Bool.not_true, false_eq_true, if_false, if_true]
    rw [if_pos (by omega), Nat.add_sub_cancel_left]
  | false => exact ⟨fun d _ => rfl, fun p _ => rfl⟩

/-! ## The steps -/

lemma wrote_nothing (s : FlushState) (n offset : Nat) :
    s.wrote s.fs n offset 0 = { s with returned := none } := by
  have hchanged : (fun t n' d => s.changed t n' d ||
      (decide (n' = n) && decide (offset ≤ d) && decide (d < offset + 0))) = s.changed := by
    funext t n' d
    simp
  simp only [FlushState.wrote, hchanged]

section

variable (h : FlushKept inodeTable s)
include h

lemma FlushKept.forget : FlushKept inodeTable { s with returned := none } :=
  ⟨h.layout, h.clean, h.busy, h.waiting, h.alone, h.pages, h.passed, returnedStored_of_none rfl⟩

/-- Whoever waits does so for a page that is being written. -/
lemma FlushKept.waits_other (hc : s.fs.cache[n]? = some c) (hidle : c.writeback = false) :
    ∀ u q n' ok', s.syncs u = some q → q.waiting = some (n', ok') → n' ≠ n := by
  rintro u q n' ok' hq hw rfl
  obtain ⟨-, c', hc', hwriteback, -⟩ := h.waiting u q n' ok' hq hw
  cases hc.symm.trans hc'
  rw [hidle] at hwriteback
  cases hwriteback

/-- One entry gets other flags. The bytes that were stored stay so, apart from bytes of its
page that are noted as changed. -/
lemma FlushKept.modified (hc : s.fs.cache[n]? = some c)
    (hcache : s'.fs.cache = s.fs.cache.modify n f) (hf : ∀ c, place (f c) = place c)
    (hchanged : ∀ u n' d, s'.changed u n' d = false → s.changed u n' d = false)
    (hkeep : ∀ n' c' d, s.fs.cache[n']? = some c' → d < 4096 →
      (n' = n → ∃ u, s'.changed u n d = false) → StoredByte inodeTable s.fs c' d →
        StoredByte inodeTable s'.fs c' d)
    (hclean : (f c).dirty = false → (f c).writeback = false → Stored inodeTable s'.fs c)
    (hbusy : (f c).writeback → (f c).dirty)
    (hwaiting : ∀ u q n' ok, s'.syncs u = some q → q.waiting = some (n', ok) →
      (n' ≠ n ∧ s.syncs u = some q) ∨
        (n' = n ∧ (f c).writeback ∧ q.call.entry inodeTable s.fs.cache q.i = some n ∧
          (ok → Stored inodeTable s'.fs c)))
    (halone : ∀ u u' q q' n ok ok', s'.syncs u = some q → s'.syncs u' = some q' →
      q.waiting = some (n, ok) → q'.waiting = some (n, ok') → u = u')
    (hpages : ∀ u q m, s'.syncs u = some q → q.call = .file m → 0 < filePages (inodeTable m).size)
    (hpassed : ∀ u q, s'.syncs u = some q → q.ret = 0 → ∀ n' c', s.fs.cache[n']? = some c' →
      q.call.Passed q.i n' c' → OldStored inodeTable s u n' c')
    (hreturned : s'.returned = none) : FlushKept inodeTable s' := by
  have hplaces : places s'.fs.cache = places s.fs.cache := by
    rw [hcache]
    exact places_modify hf _ _
  have hcases : ∀ n' c', s'.fs.cache[n']? = some c' →
      (n' = n ∧ c' = f c) ∨ (n' ≠ n ∧ s.fs.cache[n']? = some c') :=
    fun n' c' hc' => modify_cases hc (hcache ▸ hc')
  have hstored : ∀ n' c', s.fs.cache[n']? = some c' → n' ≠ n → Stored inodeTable s.fs c' →
      Stored inodeTable s'.fs c' :=
    fun n' c' hc' hne hst d hd => hkeep n' c' d hc' hd (fun heq => absurd heq hne) (hst d hd)
  refine ⟨h.layout.of_places hplaces, fun c' hc' hdirty hidle => ?_, fun c' hc' hw => ?_,
    fun u q n' ok hq hw => ?_, halone, hpages, fun u q hq hret n' c' hc' hpast d hd hun => ?_,
    returnedStored_of_none hreturned⟩
  · obtain ⟨n', hn'⟩ := mem_iff_getElem?.mp hc'
    rcases hcases n' c' hn' with ⟨-, rfl⟩ | ⟨hne, hold⟩
    · exact (hclean hdirty hidle).congr (hf c).symm
    · exact hstored n' c' hold hne (h.clean c' (mem_of_getElem? hold) hdirty hidle)
  · obtain ⟨n', hn'⟩ := mem_iff_getElem?.mp hc'
    rcases hcases n' c' hn' with ⟨-, rfl⟩ | ⟨-, hold⟩
    · exact hbusy hw
    · exact h.busy c' (mem_of_getElem? hold) hw
  · rcases hwaiting u q n' ok hq hw with ⟨hne, hold⟩ | ⟨rfl, hwb, hat, hst⟩
    · obtain ⟨hat, c', hc', hwb, hst⟩ := h.waiting u q n' ok hold hw
      refine ⟨(entry_congr hplaces _ _).trans hat, c', ?_, hwb,
        fun hok => hstored n' c' hc' hne (hst hok)⟩
      rw [hcache, getElem?_modify_ne _ _ (Ne.symm hne), hc']
    · refine ⟨(entry_congr hplaces _ _).trans hat, f c, ?_, hwb,
        fun hok => (hst hok).congr (hf c).symm⟩
      rw [hcache, getElem?_modify_eq, hc]
      rfl
  · obtain ⟨c0, hc0, hplace⟩ := getElem?_of_places hplaces hc'
    have hold := hpassed u q hq hret n' c0 hc0 (hpast.congr hplace) d hd (hchanged u n' d hun)
    exact (hkeep n' c0 d hc0 hd (fun heq => ⟨u, heq ▸ hun⟩) hold).congr hplace

lemma FlushKept.write (hfound : s.fs.inodes fp = some inode) (hcached : s.fs.cache[n]? = some c)
    (hkey : c.key = (inode.inodeNum, 0)) (hpage : offset + size ≤ 4096)
    (hrun : dfsWrite 1 s.fs fp buffer offset size = some (fs, count))
    (hgood : Undisturbed inodeTable s (.write fp buffer offset size)) :
    FlushKept inodeTable (s.wrote fs n offset count) := by
  have hmem : c ∈ s.fs.cache := mem_of_getElem? hcached
  have hfits := h.layout.fits c hmem
  rcases write_cases h.layout.keys hfound hcached hkey hpage hfits hrun with
    ⟨rfl, rfl⟩ | ⟨⟨hnull, hs, hfile⟩, rfl, hcache, hdisk, hout⟩
  · rw [wrote_nothing]
    exact h.forget
  have hquiet : c.writeback = false :=
    hgood inode c hfound (getPageCache_of_getElem? h.layout.keys hcached hkey) hnull hs hfile
  refine h.modified hcached hcache (fun _ => rfl) (fun u n' d hun => (or_eq_false_iff.mp hun).1)
    (fun n' c' d hc' hd hun hst => ?_) (fun hclean => ?_) (fun _ => (setFlag_dirtyFlag c).1)
    (fun u q n' ok hq hw => .inl ⟨h.waits_other hcached hquiet u q n' ok hq hw, hq⟩) h.alone
    h.pages h.passed rfl
  · refine (congrFun hdisk _).trans (hst.trans (hout _ ?_).symm)
    by_cases hn : n' = n
    · obtain ⟨u, hbyte⟩ := hun hn
      subst hn
      cases hc'.symm.trans hcached
      have houtside : ¬ (offset ≤ d ∧ d < offset + count) := by
        simpa using (or_eq_false_iff.mp hbyte).2
      omega
    · have hap := h.layout.frames c' (mem_of_getElem? hc') c hmem (h.layout.key_ne hc' hcached hn)
      simp only [Apart] at hap
      omega
  · rw [(setFlag_dirtyFlag c).1] at hclean
    cases hclean

lemma FlushKept.skip (hsync : s.syncs t = some r) (hwait : r.waiting = none)
    (hskip : ∀ n c, r.call.entry inodeTable s.fs.cache r.i = some n → s.fs.cache[n]? = some c →
      c.dirty = false) :
    FlushKept inodeTable (s.setSync t (some { r with i := r.i + 1 })) := by
  have hidle : ({ r with i := r.i + 1 } : SyncRun).waiting = none := hwait
  refine ⟨h.layout, h.clean, h.busy,
    fun u q n ok hq hw => h.waiting u q n ok (setSync_waits hidle hq hw).2 hw,
    h.alone_setSync hidle, h.pages_setSync fun n => h.pages t r n hsync, ?_,
    returnedStored_of_none rfl⟩
  intro u q hq hret n c hc hpassed
  rcases update_eq_cases hq with ⟨rfl, heq⟩ | ⟨-, hold⟩
  · cases heq
    rcases h.layout.passed_succ hc hpassed with hpassed | hentry
    · exact h.passed u r hsync hret n c hc hpassed
    · have hclean := hskip n c hentry hc
      have hmem : c ∈ s.fs.cache := mem_of_getElem? hc
      have hidle : c.writeback = false := by
        by_contra hw
        rw [h.busy c hmem (eq_true_of_not_eq_false hw)] at hclean
        cases hclean
      exact fun d hd _ => h.clean c hmem hclean hidle d hd
  · exact h.passed u q hold hret n c hc hpassed

lemma FlushKept.alone_waiting
    (hwaits : ∀ u q n' ok', s.syncs u = some q → q.waiting = some (n', ok') → n' ≠ n) :
    ∀ u u' q q' n' ok1 ok2, update s.syncs t (some { r with waiting := some (n, ok) }) u = some q →
      update s.syncs t (some { r with waiting := some (n, ok) }) u' = some q' →
      q.waiting = some (n', ok1) → q'.waiting = some (n', ok2) → u = u' := by
  intro u u' q q' n' ok1 ok2 hq hq' hw hw'
  rcases update_eq_cases hq with ⟨rfl, heq⟩ | ⟨-, hold⟩ <;>
    rcases update_eq_cases hq' with ⟨rfl, heq'⟩ | ⟨-, hold'⟩
  · rfl
  · cases heq
    obtain ⟨rfl, -⟩ := Prod.mk.inj (Option.some_inj.mp hw)
    exact absurd rfl (hwaits u' q' n ok2 hold' hw')
  · cases heq'
    obtain ⟨rfl, -⟩ := Prod.mk.inj (Option.some_inj.mp hw')
    exact absurd rfl (hwaits u q n ok1 hold hw)
  · exact h.alone u u' q q' n' ok1 ok2 hold hold' hw hw'

end

/-- The entry is marked and its page, if the disk takes it, copied to its block. -/
structure PageCopied (inodeTable : Nat → Inode) (old fs : FsState) (n : Nat) (c : CachePage)
    (ok : Bool) : Prop where
  cache : fs.cache = old.cache.modify n (·.setFlag writebackFlag)
  mem : fs.mem = old.mem
  own : ∀ d < 4096, fs.disk (pageSector inodeTable c * 512 + d) =
    if ok then old.mem (direct c.addr + d) else old.disk (pageSector inodeTable c * 512 + d)
  other : ∀ p, ¬ (pageSector inodeTable c * 512 ≤ p ∧ p < pageSector inodeTable c * 512 + 4096) →
    fs.disk p = old.disk p

lemma ahciWrite_pageCopied (inodeTable : Nat → Inode) (old : FsState) (n : Nat) (c : CachePage)
    (ok : Bool) : PageCopied inodeTable old (ahciWrite (fun _ => !ok)
      (old.modifyEntry n (·.setFlag writebackFlag)) (pageSector inodeTable c) c.addr).1 n c ok := by
  obtain ⟨hown, hother⟩ := ahciWrite_copied (old.modifyEntry n (·.setFlag writebackFlag)) ok
    (pageSector inodeTable c) c.addr
  cases ok with
  | true => exact ⟨rfl, rfl, hown, hother⟩
  | false => exact ⟨rfl, rfl, hown, hother⟩

/-- The blocks of the other pages are as before. -/
lemma PageCopied.block (h : PageCopied inodeTable s.fs fs n c ok)
    (hlayout : Layout inodeTable s.fs.cache) (hc : s.fs.cache[n]? = some c) :
    ∀ n' c', s.fs.cache[n']? = some c' → n' ≠ n → ∀ d < 4096,
      fs.disk (pageSector inodeTable c' * 512 + d) =
        s.fs.disk (pageSector inodeTable c' * 512 + d) := by
  intro n' c' hc' hne d hd
  have hap := hlayout.blocks c' (mem_of_getElem? hc') c (mem_of_getElem? hc)
    (hlayout.key_ne hc' hc hne)
  simp only [Apart] at hap
  exact h.other _ (by omega)

lemma FlushKept.copy (h : FlushKept inodeTable s) (hsync : s.syncs t = some r)
    (hentry : r.call.entry inodeTable s.fs.cache r.i = some n) (hc : s.fs.cache[n]? = some c)
    (hdirty : c.dirty) (hidle : c.writeback = false) :
    FlushKept inodeTable { s.setSync t (some { r with waiting := some (n, ok) }) with
        fs := (ahciWrite (fun _ => !ok) (s.fs.modifyEntry n (·.setFlag writebackFlag))
          (r.call.lba inodeTable r.i c) c.addr).1 } := by
  rw [h.layout.lba_eq hentry hc]
  have hcopied := ahciWrite_pageCopied inodeTable s.fs n c ok
  generalize (ahciWrite (fun _ => !ok) (s.fs.modifyEntry n (·.setFlag writebackFlag))
    (pageSector inodeTable c) c.addr).1 = fs at hcopied ⊢
  have hwaits := h.waits_other hc hidle
  have hrun : ∀ u q, update s.syncs t (some { r with waiting := some (n, ok) }) u = some q →
      ∃ q0, s.syncs u = some q0 ∧ q0.ret = q.ret ∧ q0.call = q.call ∧ q0.i = q.i := by
    intro u q hq
    rcases update_eq_cases hq with ⟨rfl, heq⟩ | ⟨-, hold⟩
    · cases heq
      exact ⟨r, hsync, rfl, rfl, rfl⟩
    · exact ⟨q, hold, rfl, rfl, rfl⟩
  refine h.modified hc hcopied.cache (fun _ => rfl) (fun _ _ _ hun => hun)
    (fun n' c' d hc' hd _ hst => ?_) (fun _ hquiet => ?_) (fun _ => ?_) (fun u q n' ok' hq hw => ?_)
    (h.alone_waiting hwaits) (h.pages_setSync fun n' => h.pages t r n' hsync)
    (fun u q hq hret n' c' hc' hpast => ?_) rfl
  · rw [StoredByte, hcopied.mem]
    by_cases hn : n' = n
    · subst hn
      cases hc'.symm.trans hc
      rw [hcopied.own d hd, hst, ite_self]
    · rw [hcopied.block h.layout hc n' c' hc' hn d hd]
      exact hst
  · rw [(setFlag_writebackFlag c).2] at hquiet
    cases hquiet
  · rw [(setFlag_writebackFlag c).1]
    exact hdirty
  · rcases update_eq_cases hq with ⟨rfl, heq⟩ | ⟨-, hold⟩
    · cases heq
      cases hw
      refine .inr ⟨rfl, (setFlag_writebackFlag c).2, hentry, fun hok d hd => ?_⟩
      rw [hcopied.own d hd, if_pos hok, hcopied.mem]
    · exact .inl ⟨hwaits u q n' ok' hold hw, hold⟩
  · obtain ⟨q0, hold, hret0, hcall, hi⟩ := hrun u q hq
    rw [← hcall, ← hi] at hpast
    exact h.passed u q0 hold (hret0.trans hret) n' c' hc' hpast

lemma FlushKept.visit (h : FlushKept inodeTable s) (hsync : s.syncs t = some r)
    (hwait : r.waiting = none) (hgood : Undisturbed inodeTable s (.visit t ok)) :
    FlushKept inodeTable (s.visit inodeTable t r ok) := by
  unfold FlushState.visit
  cases hentry : r.call.entry inodeTable s.fs.cache r.i with
  | none =>
    refine h.skip hsync hwait fun n c hat => ?_
    rw [hentry] at hat
    cases hat
  | some n =>
    dsimp only
    have hsame : ∀ n', r.call.entry inodeTable s.fs.cache r.i = some n' → n' = n := by
      intro n' hat
      exact Option.some_inj.mp (hat.symm.trans hentry)
    cases hc : s.fs.cache[n]? with
    | none =>
      refine h.skip hsync hwait fun n' c' hat hc' => ?_
      obtain rfl := hsame n' hat
      rw [hc] at hc'
      cases hc'
    | some c =>
      dsimp only
      split_ifs with hdirty
      · exact h.copy hsync hentry hc hdirty.1 (eq_false_iff.mpr hdirty.2)
      · refine h.skip hsync hwait fun n' c' hat hc' => ?_
        obtain rfl := hsame n' hat
        cases hc.symm.trans hc'
        by_contra hno
        have hyes := eq_true_of_not_eq_false hno
        refine hdirty ⟨hyes, ?_⟩
        rw [hgood r n' c hsync hentry hc hyes]
        exact false_ne_true

/-- The flags after the wait. -/
def afterWait (ok : Bool) (c : CachePage) : CachePage :=
  if ok then (c.clearFlag writebackFlag).clearFlag dirtyFlag else c.clearFlag writebackFlag

lemma finish_fs (s : FlushState) (t : Nat) (r : SyncRun) (n : Nat) (ok : Bool) :
    (s.finish t r n ok).fs = { s.fs with cache := s.fs.cache.modify n (afterWait ok) } := by
  cases ok with
  | true =>
    simp only [FlushState.finish, if_true, FsState.modifyEntry, modify_modify_eq]
    rfl
  | false => rfl

lemma afterWait_place (ok : Bool) (c : CachePage) : place (afterWait ok c) = place c := by
  cases ok <;> rfl

lemma afterWait_writeback (ok : Bool) (c : CachePage) : (afterWait ok c).writeback = false := by
  cases ok with
  | true => exact clearFlag_writeback (clearFlag_writebackFlag c).2
  | false => exact (clearFlag_writebackFlag c).2

section

variable (h : FlushKept inodeTable s)
include h

lemma FlushKept.finish (hsync : s.syncs t = some r) (hwait : r.waiting = some (n, ok)) :
    FlushKept inodeTable (s.finish t r n ok) := by
  obtain ⟨hentry, c, hc, hwriteback, hstored⟩ := h.waiting t r n ok hsync hwait
  have hmem : c ∈ s.fs.cache := mem_of_getElem? hc
  have hfs := finish_fs s t r n ok
  have hkeep : ∀ c' d, StoredByte inodeTable s.fs c' d →
      StoredByte inodeTable (s.finish t r n ok).fs c' d := by
    intro c' d hst
    rw [hfs]
    exact hst
  refine h.modified hc (congrArg FsState.cache hfs) (afterWait_place ok) (fun _ _ _ hun => hun)
    (fun n' c' d _ _ _ => hkeep c' d) (fun hclean _ => ?_) (fun hw => ?_)
    (fun u q n' ok' hq hw => ?_) (h.alone_setSync rfl)
    (h.pages_setSync fun n' => h.pages t r n' hsync) (fun u q hq hret n' c' hc' hpast => ?_) rfl
  · cases ok with
    | true => exact fun d hd => hkeep c d (hstored rfl d hd)
    | false =>
      have hdirty : (c.clearFlag writebackFlag).dirty = true :=
        (clearFlag_writebackFlag c).1.trans (h.busy c hmem hwriteback)
      exact absurd (hclean.symm.trans hdirty) false_ne_true
  · rw [afterWait_writeback] at hw
    cases hw
  · obtain ⟨hne, hold⟩ := setSync_waits rfl hq hw
    refine .inl ⟨?_, hold⟩
    rintro rfl
    exact hne (h.alone u t q r n' ok' ok hold hsync hw hwait)
  · rcases update_eq_cases hq with ⟨rfl, heq⟩ | ⟨-, hold⟩
    · cases heq
      cases ok with
      | false => exact absurd hret (succ_ne_zero _)
      | true =>
        rcases h.layout.passed_succ hc' hpast with hpast | hat
        · exact h.passed u r hsync hret n' c' hc' hpast
        · obtain rfl : n = n' := Option.some_inj.mp (hentry.symm.trans hat)
          cases hc.symm.trans hc'
          exact (hstored rfl).old u n
    · exact h.passed u q hold hret n' c' hc' hpast

lemma FlushKept.begin (hgood : Undisturbed inodeTable s (.start t call)) :
    FlushKept inodeTable { s.setSync t (some ⟨call, 0, 0, none⟩) with
        changed := update s.changed t fun _ _ => false } := by
  refine ⟨h.layout, h.clean, h.busy,
    fun u q n ok hq hw => h.waiting u q n ok (setSync_waits rfl hq hw).2 hw,
    h.alone_setSync rfl, h.pages_setSync fun n hcall => ?_, ?_, returnedStored_of_none rfl⟩
  · subst hcall
    exact hgood
  · intro u q hq hret n c hc hpassed d hd hchanged
    rcases update_eq_cases hq with ⟨-, heq⟩ | ⟨hne, hold⟩
    · cases heq
      cases call with
      | file m => exact absurd hpassed.2 (not_lt_zero _)
      | all => exact absurd hpassed (not_lt_zero _)
    · simp only [update_of_ne hne] at hchanged
      exact h.passed u q hold hret n c hc hpassed d hd hchanged

lemma FlushKept.leave (hsync : s.syncs t = some r)
    (hlimit : r.call.limit inodeTable s.fs.cache ≤ r.i) :
    FlushKept inodeTable { s.setSync t none with returned := some (t, r.call, r.ret) } := by
  have hold : ∀ u q, update s.syncs t none u = some q → s.syncs u = some q := by
    intro u q hq
    rcases update_eq_cases hq with ⟨-, heq⟩ | ⟨-, hold⟩
    · cases heq
    · exact hold
  refine ⟨h.layout, h.clean, h.busy, fun u q n ok hq => h.waiting u q n ok (hold u q hq),
    fun u u' q q' n ok ok' hq hq' => h.alone u u' q q' n ok ok' (hold u q hq) (hold u' q' hq'),
    fun u q n hq => h.pages u q n (hold u q hq), fun u q hq => h.passed u q (hold u q hq), ?_⟩
  intro u call hr n c hc hcovers
  obtain ⟨rfl, rfl, hret⟩ : t = u ∧ r.call = call ∧ r.ret = 0 := by simpa using hr
  refine h.passed t r hsync hret n c hc ?_
  cases hcall : r.call with
  | file m =>
    rw [hcall] at hcovers hlimit
    obtain ⟨hid, hindx⟩ := Prod.mk.inj hcovers
    have hpos := h.pages t r m hsync hcall
    refine ⟨hid, ?_⟩
    rw [hindx]
    exact lt_of_lt_of_le hpos hlimit
  | all =>
    rw [hcall] at hlimit
    exact lt_of_lt_of_le (List.getElem?_eq_some_iff.mp hc).1 hlimit

lemma FlushKept.step (hgood : Undisturbed inodeTable s act)
    (hstep : FlushStep inodeTable s act s') : FlushKept inodeTable s' := by
  cases hstep with
  | write hfound hcached hkey hpage _ hrun => exact h.write hfound hcached hkey hpage hrun hgood
  | start _ => exact h.begin hgood
  | visit hsync hwait _ _ => exact h.visit hsync hwait hgood
  | finish hsync hwait => exact h.finish hsync hwait
  | leave hsync _ hlimit => exact h.leave hsync hlimit

end

/-- A round that is not interrupted is that of the sequential loop. -/
lemma syncPage_of_wait (inodeTable : Nat → Inode)
    (hentry : r.call.entry inodeTable s.fs.cache r.i = some n) (hc : s.fs.cache[n]? = some c)
    (hdirty : c.dirty) (hidle : c.writeback = false) :
    ((s.visit inodeTable t r ok).finish t { r with waiting := some (n, ok) } n ok).fs =
        (syncPage (fun _ => !ok) (r.call.lba inodeTable r.i c) n (s.fs, r.ret)).1 ∧
      ((s.visit inodeTable t r ok).finish t { r with waiting := some (n, ok) } n ok).syncs t =
        some ⟨r.call, r.i + 1,
          (syncPage (fun _ => !ok) (r.call.lba inodeTable r.i c) n (s.fs, r.ret)).2, none⟩ := by
  have hgo : c.dirty ∧ ¬ c.writeback := ⟨hdirty, by rw [hidle]; exact false_ne_true⟩
  unfold FlushState.visit syncPage
  rw [hentry, hc]
  dsimp only
  rw [hc, if_pos hgo]
  dsimp only
  rw [if_pos hgo]
  cases ok with
  | true => exact ⟨rfl, update_self ..⟩
  | false => exact ⟨rfl, update_self ..⟩

/-! ## The result -/

/-- A write changes a page between the copy and the end of its sync. -/
structure ChangedMeanwhile (inodeTable : Nat → Inode) (s s₁ : FlushState) (t : Nat) : Prop where
  step : ∃ fp buffer offset size, FlushStep inodeTable s (.write fp buffer offset size) s₁
  page : ∃ r n c d, s.syncs t = some r ∧ r.waiting = some (n, true) ∧ s.fs.cache[n]? = some c ∧
    d < 4096 ∧ s₁.fs.mem (direct c.addr + d) ≠ s.fs.mem (direct c.addr + d)

/-- When the sync ends, the page counts as clean and is not equal to its block. -/
lemma FlushKept.lost {s1 s₂ : FlushState} (h : FlushKept inodeTable s)
    (hchanged : ChangedMeanwhile inodeTable s s1 t)
    (hfinish : FlushStep inodeTable s1 (.finish t) s₂) : ¬ CleanStored inodeTable s₂ := by
  obtain ⟨⟨fp, buffer, offset, size, hwrite⟩, r, n, c, d, hsync, hwait, hc, hd, hne⟩ := hchanged
  obtain ⟨-, c0, hc0, -, hstored⟩ := h.waiting t r n true hsync hwait
  cases hc.symm.trans hc0
  cases hwrite with
  | @write _ inode _ _ _ m count c1 fs hfound hcached hkey hpage hbuffer hrun =>
    have hfits := h.layout.fits c1 (mem_of_getElem? hcached)
    have hsame : places fs.cache = places s.fs.cache ∧ fs.disk = s.fs.disk := by
      rcases write_cases h.layout.keys hfound hcached hkey hpage hfits hrun with
        ⟨rfl, -⟩ | ⟨-, -, hcache, hdisk, -⟩
      · exact ⟨rfl, rfl⟩
      · refine ⟨?_, hdisk⟩
        rw [hcache]
        exact places_modify (f := (·.setFlag dirtyFlag)) (fun _ => rfl) _ _
    cases hfinish with
    | @finish _ r' n' ok' hsync' hwait' =>
      obtain rfl : r = r' := Option.some_inj.mp (hsync.symm.trans hsync')
      cases hwait.symm.trans hwait'
      obtain ⟨c', hc', hplace⟩ := getElem?_of_places hsame.1.symm hc
      have haddr : c'.addr = c.addr := congrArg Prod.snd hplace
      intro hclean
      have hmem : afterWait true c' ∈ ((s.wrote fs m offset count).finish t r n true).fs.cache := by
        rw [finish_fs]
        apply mem_of_getElem? (i := n)
        refine (getElem?_modify_eq ..).trans ?_
        rw [show (s.wrote fs m offset count).fs.cache[n]? = some c' from hc']
        rfl
      have hbyte := hclean _ hmem (clearFlag_dirty _) (afterWait_writeback true c') d hd
      rw [pageSector_congr (afterWait_place true c'), pageSector_congr hplace] at hbyte
      have hbefore := hstored rfl d hd
      refine hne ?_
      rw [← hbefore, ← congrFun hsame.2 _, ← haddr]
      exact hbyte.symm

/-- In every run that is not disturbed, clean pages are equal to their blocks and syncs that
return 0 have stored what was written before. A write that changes a page during its
writeback leads to a clean page that is not. -/
theorem concurrent_sync_undisturbed
    (run : (flushMachine inodeTable).Reached (Undisturbed inodeTable) s) :
    CleanStored inodeTable s ∧ ReturnedStored inodeTable s ∧
      ∀ t s₁ s₂, ChangedMeanwhile inodeTable s s₁ t → FlushStep inodeTable s₁ (.finish t) s₂ →
        ¬ CleanStored inodeTable s₂ := by
  have hstart : ∀ s, (flushMachine inodeTable).start s → FlushKept inodeTable s :=
    fun s hs => FlushKept.start hs
  have hkept : FlushKept inodeTable s :=
    run.invariant hstart fun _ _ _ h hgood hstep => h.step hgood hstep
  exact ⟨hkept.clean, hkept.returned, fun t s₁ s₂ hchanged hfinish => hkept.lost hchanged hfinish⟩

/-! ## A write and a sync meanwhile -/

/-- One file of one page, in block 10. -/
def blockTen (n : Nat) : Inode := if n = 3 then ⟨3, 4096, 10, 1⟩ else ⟨n, 0, 0, 0⟩

/-- The page is cached and dirty. The buffer at `0x200000` holds the byte 65. -/
def dirtyStart : FlushState where
  fs := ⟨[⟨3, 0, 4096, 1⟩], [], [], fun _ => some ⟨3, 4096, 10, 1⟩, fun _ => 0,
    fun a => if a = 0x200000 then 65 else 7⟩
  syncs := fun _ => none
  changed := fun _ _ _ => false
  returned := none

lemma dirtyStart_start : (flushMachine blockTen).start dirtyStart := by
  have hone : ∀ c ∈ dirtyStart.fs.cache, c = ⟨3, 0, 4096, 1⟩ := fun c hc => mem_singleton.mp hc
  refine ⟨⟨fun n => ?_, by decide, fun c hc => ?_, fun c hc c' hc' hne => ?_,
    fun c hc c' hc' hne => ?_⟩, fun c hc => ?_, fun c hc => ?_, fun c hc hclean => ?_, fun _ => rfl,
    rfl⟩
  · by_cases hn : n = 3 <;> simp [blockTen, hn]
  · rw [hone c hc]
    decide
  · exact absurd (by rw [hone c hc, hone c' hc']) hne
  · exact absurd (by rw [hone c hc, hone c' hc']) hne
  · rw [hone c hc]
    decide
  · rw [hone c hc]
    decide
  · rw [hone c hc] at hclean
    exact absurd hclean (by decide)

/-- Thread 1 calls `SYS_SYNC`. -/
def syncCalled : FlushState :=
  { dirtyStart.setSync 1 (some ⟨.all, 0, 0, none⟩) with
    changed := update dirtyStart.changed 1 fun _ _ => false }

/-- It waits for its write, which the device carries out or not. -/
def syncWaits (ok : Bool) : FlushState := syncCalled.visit blockTen 1 ⟨.all, 0, 0, none⟩ ok

lemma syncCalled_step : FlushStep blockTen dirtyStart (.start 1 .all) syncCalled := .start rfl

lemma syncWaits_step (ok : Bool) : FlushStep blockTen syncCalled (.visit 1 ok) (syncWaits ok) :=
  .visit rfl rfl (by decide) trivial

/-- The write is carried out, and the sync returns 0. -/
def syncReturns : FlushState :=
  { ((syncWaits true).finish 1 ⟨.all, 0, 0, some (0, true)⟩ 0 true).setSync 1 none with
    returned := some (1, .all, 0) }

theorem concurrent_sync_waits : syncReturns.fs.cache = [⟨3, 0, 4096, 0⟩] ∧
    CleanStored blockTen syncReturns ∧ ReturnedStored blockTen syncReturns := by
  have hvisit : Undisturbed blockTen syncCalled (.visit 1 true) := by
    intro r n c _ _ hc _
    have hmem : c ∈ dirtyStart.fs.cache := mem_of_getElem? hc
    rw [mem_singleton.mp hmem]
    decide
  have hstart : Undisturbed blockTen dirtyStart (.start 1 .all) := trivial
  have hwaits := ((Machine.Reached.start dirtyStart_start).step hstart syncCalled_step).step hvisit
    (syncWaits_step true)
  have hfinish : FlushStep blockTen (syncWaits true) (.finish 1) _ :=
    .finish (r := ⟨.all, 0, 0, some (0, true)⟩) (by decide +kernel) rfl
  have hleave : FlushStep blockTen _ (.leave 1) syncReturns :=
    .leave (r := ⟨.all, 1, 0, none⟩) (by decide +kernel) rfl (by decide +kernel)
  have hdone := hwaits.step (a := FlushAction.finish 1) trivial hfinish
  have hreturns := hdone.step (a := FlushAction.leave 1) trivial hleave
  obtain ⟨hclean, hstored, -⟩ := concurrent_sync_undisturbed hreturns
  exact ⟨by decide +kernel, hclean, hstored⟩

/-- The first byte of the page is written, and then the sync goes on. -/
def writtenMeanwhile : FsState × Nat :=
  (dfsWrite 1 (syncWaits true).fs [] 0x200000 0 1).getD ((syncWaits true).fs, 0)

def afterWrite : FlushState := (syncWaits true).wrote writtenMeanwhile.1 0 0 writtenMeanwhile.2

def afterSync : FlushState := afterWrite.finish 1 ⟨.all, 0, 0, some (0, true)⟩ 0 true

/-- Thread 2 calls `SYS_SYNC` while the write of thread 1, which fails, is under way. -/
def secondCalled : FlushState :=
  { (syncWaits false).setSync 2 (some ⟨.all, 0, 0, none⟩) with
    changed := update (syncWaits false).changed 2 fun _ _ => false }

def secondSkips : FlushState := secondCalled.visit blockTen 2 ⟨.all, 0, 0, none⟩ true

def secondReturns : FlushState :=
  { secondSkips.setSync 2 none with returned := some (2, .all, 0) }

lemma afterSync_reached : (flushMachine blockTen).Reached (fun _ _ => True) afterSync := by
  have hrun : dfsWrite 1 (syncWaits true).fs [] 0x200000 0 1 =
      some (writtenMeanwhile.1, writtenMeanwhile.2) := by rfl
  have hbuffer : ∀ c ∈ (syncWaits true).fs.cache, Apart 0x200000 1 (direct c.addr) 4096 := by
    have hbelow : ∀ c ∈ (syncWaits true).fs.cache, 0x200000 + 1 ≤ direct c.addr := by decide +kernel
    exact fun c hc => .inl (hbelow c hc)
  have hwrite : FlushStep blockTen (syncWaits true) (.write [] 0x200000 0 1) afterWrite :=
    .write (c := ⟨3, 0, 4096, 3⟩) rfl (by decide +kernel) rfl (by decide) hbuffer hrun
  have hfinish : FlushStep blockTen afterWrite (.finish 1) afterSync :=
    .finish (by decide +kernel) rfl
  exact ((((Machine.Reached.start dirtyStart_start).step trivial syncCalled_step).step trivial
    (syncWaits_step true)).step trivial hwrite).step trivial hfinish

lemma secondReturns_reached : (flushMachine blockTen).Reached (fun _ _ => True) secondReturns := by
  have hstart : FlushStep blockTen (syncWaits false) (.start 2 .all) secondCalled :=
    .start (by decide +kernel)
  have hvisit : FlushStep blockTen secondCalled (.visit 2 true) secondSkips :=
    .visit (by decide +kernel) rfl (by decide +kernel) trivial
  have hleave : FlushStep blockTen secondSkips (.leave 2) secondReturns :=
    .leave (r := ⟨.all, 1, 0, none⟩) (by decide +kernel) rfl (by decide +kernel)
  exact (((((Machine.Reached.start dirtyStart_start).step trivial syncCalled_step).step trivial
    (syncWaits_step false)).step trivial hstart).step trivial hvisit).step trivial hleave

/-- A byte that is written after the device has copied the page is not on the disk, and the
page is clean. A sync that comes upon a page under writeback returns 0 although the write
fails. -/
theorem sync_loses_write : ((flushMachine blockTen).Reached (fun _ _ => True) afterSync ∧
      afterSync.fs.cache = [⟨3, 0, 4096, 0⟩] ∧ ¬ CleanStored blockTen afterSync) ∧
    ((flushMachine blockTen).Reached (fun _ _ => True) secondReturns ∧
      secondReturns.returned = some (2, .all, 0) ∧ ¬ ReturnedStored blockTen secondReturns) := by
  have hcache : afterSync.fs.cache = [⟨3, 0, 4096, 0⟩] := by decide +kernel
  refine ⟨⟨afterSync_reached, hcache, fun hclean => ?_⟩, secondReturns_reached, rfl,
    fun hstored => ?_⟩
  · have hbyte := hclean ⟨3, 0, 4096, 0⟩ (hcache ▸ mem_cons_self) (by decide) (by decide) 0
      (by decide)
    exact absurd hbyte (by decide +kernel)
  · have hc : secondReturns.fs.cache[0]? = some ⟨3, 0, 4096, 3⟩ := by decide +kernel
    have hbyte := hstored 2 .all rfl 0 _ hc trivial 0 (by decide) (by decide +kernel)
    exact absurd hbyte (by decide +kernel)

end DestinX.Fs
