import DestinX.Fs.OneEntry

/-!
# Writing dirty pages back

`dfs_file_sync` of `fs/dfs.c` and `SYS_SYNC`. A page that is dirty and not being written is
marked with `WRITEBACK_FLAG`, written to its eight sectors, and unmarked; when the write
succeeds it is no longer dirty. A pointer to an entry is its place on `cache_list`. Which writes
fail is given by the first sector.
-/

namespace DestinX.Fs

open Base List Nat

/-! ## Flags -/

def writebackFlag : Nat := 2

def CachePage.setFlag (c : CachePage) (flag : Nat) : CachePage :=
  { c with flags := c.flags ||| flag }

/-- `flags &= ~flag` -/
def CachePage.clearFlag (c : CachePage) (flag : Nat) : CachePage :=
  { c with flags := c.flags &&& (2 ^ 64 - (flag + 1)) }

def CachePage.dirty (c : CachePage) : Bool := c.flags &&& dirtyFlag ≠ 0

def CachePage.writeback (c : CachePage) : Bool := c.flags &&& writebackFlag ≠ 0

/-- What identifies the page. -/
def CachePage.key (c : CachePage) : Nat × Nat := (c.id, c.indx)

/-! ## The two calls -/

/-- `ahci_write` of one page to eight sectors, with its success. -/
def ahciWrite (fails : Nat → Bool) (st : FsState) (lba addr : Nat) : FsState × Bool :=
  if fails lba then (st, false)
  else
    ({ st with
      disk := fun p =>
        if lba * 512 ≤ p ∧ p < lba * 512 + 4096 then st.mem (direct addr + (p - lba * 512))
        else st.disk p }, true)

def FsState.modifyEntry (st : FsState) (n : Nat) (f : CachePage → CachePage) : FsState :=
  { st with cache := st.cache.modify n f }

/-- The body of both loops, for the entry at place `n`. The number counts failed
writes. -/
def syncPage (fails : Nat → Bool) (lba n : Nat) (s : FsState × Nat) : FsState × Nat :=
  match s.1.cache[n]? with
  | none => s
  | some c =>
    if c.dirty ∧ ¬ c.writeback then
      let r := ahciWrite fails (s.1.modifyEntry n (·.setFlag writebackFlag)) lba c.addr
      let st := r.1.modifyEntry n (·.clearFlag writebackFlag)
      if r.2 then (st.modifyEntry n (·.clearFlag dirtyFlag), s.2) else (st, s.2 + 1)
    else s

/-- `(inode->extent.start_block + i) * 8` -/
def syncSector (inode : Inode) (i : Nat) : Nat := (inode.startBlock + i) * 8 % 2 ^ 64

/-- The pages that `dfs_file_sync` goes over. -/
def filePages (size : Nat) : Nat := add64 size 4095 / 4096

/-- `dfs_file_sync`. The loop counts in an `int`. -/
def dfsFileSync (fails : Nat → Bool) (st : FsState) (inode : Inode) : Option (FsState × Nat) :=
  if 2 ^ 31 ≤ filePages inode.size then none
  else
    some ((List.range (filePages inode.size)).foldl (fun s i =>
      match s.1.cache.findIdx? fun c => c.id = inode.inodeNum ∧ c.indx = i with
      | none => s
      | some n => syncPage fails (syncSector inode i) n s) (st, 0))

/-- `SYS_SYNC` -/
def sysSync (fails : Nat → Bool) (inodeTable : Nat → Inode) (st : FsState) : FsState × Nat :=
  (List.range st.cache.length).foldl (fun s n =>
    match s.1.cache[n]? with
    | none => s
    | some c => syncPage fails (syncSector (inodeTable c.id) c.indx) n s) (st, 0)

/-! ## What writing pages back does -/

/-- The page is written, and this succeeds. `sector` gives the place of each page. -/
def Flushed (fails : Nat → Bool) (sector : Nat × Nat → Nat) (c : CachePage) : Bool :=
  c.dirty && !fails (sector c.key)

/-- `p` is in the sectors of the page. -/
def InSectors (sector : Nat × Nat → Nat) (c : CachePage) (p : Nat) : Prop :=
  sector c.key * 512 ≤ p ∧ p < sector c.key * 512 + 4096

/-- The dirty pages among those of `sel` have been written: they are clean and on the disk,
unless the write failed. Everything else is as before. -/
structure Synced (fails : Nat → Bool) (sector : Nat × Nat → Nat) (sel : Nat × Nat → Bool)
    (s s' : FsState × Nat) : Prop where
  cache : s'.1.cache = s.1.cache.map fun c =>
    if sel c.key && Flushed fails sector c then c.clearFlag dirtyFlag else c
  written : ∀ c ∈ s.1.cache, sel c.key → Flushed fails sector c →
    ∀ d < 4096, s'.1.disk (sector c.key * 512 + d) = s.1.mem (direct c.addr + d)
  kept : ∀ p, (∀ c ∈ s.1.cache, sel c.key → Flushed fails sector c → ¬ InSectors sector c p) →
    s'.1.disk p = s.1.disk p
  rest : s'.1 = { s.1 with cache := s'.1.cache, disk := s'.1.disk }
  failed : s'.2 = s.2 + s.1.cache.countP fun c => sel c.key && c.dirty && fails (sector c.key)

/-- One entry for each page, nothing being written, and pages at different places of the
disk. -/
structure SyncReady (sector : Nat × Nat → Nat) (cache : List CachePage) : Prop where
  nodup : (cache.map CachePage.key).Nodup
  idle : ∀ c ∈ cache, c.writeback = false ∧ c.flags < 2 ^ 64
  apart : ∀ c ∈ cache, ∀ c' ∈ cache, c.key ≠ c'.key →
    Apart (sector c.key * 512) 4096 (sector c'.key * 512) 4096

variable {fails : Nat → Bool} {sector : Nat × Nat → Nat} {sel sel' : Nat × Nat → Bool}
  {s s' s'' : FsState × Nat} {c c' : CachePage} {cache : List CachePage} {n flag : Nat}

/-! ## Flags, continued -/

lemma clearFlag_setFlag (hflag : flag < 2 ^ 64) (hword : c.flags < 2 ^ 64)
    (h : c.flags &&& flag = 0) : (c.setFlag flag).clearFlag flag = c := by
  have hflags : (c.flags ||| flag) &&& (2 ^ 64 - (flag + 1)) = c.flags := by
    apply eq_of_testBit_eq
    intro i
    have hbit : (c.flags.testBit i && flag.testBit i) = false := by
      rw [← testBit_and, h, zero_testBit]
    rw [testBit_and, testBit_or, testBit_two_pow_sub_succ hflag]
    by_cases hi : i < 64
    · revert hbit
      cases c.flags.testBit i <;> cases flag.testBit i <;> simp [hi]
    · have hhigh : c.flags < 2 ^ i :=
        lt_of_lt_of_le hword (Nat.pow_le_pow_right (by norm_num) (not_lt.mp hi))
      simp [hi, testBit_lt_two_pow hhigh]
  rw [CachePage.clearFlag, CachePage.setFlag]
  simp only [hflags]

lemma clearFlag_word (c : CachePage) (flag : Nat) : (c.clearFlag flag).flags < 2 ^ 64 := by
  have hle : (c.clearFlag flag).flags ≤ 2 ^ 64 - (flag + 1) := and_le_right
  omega

lemma clearFlag_and (c : CachePage) (hflag : flag < 2 ^ 64) :
    (c.clearFlag flag).flags &&& flag = 0 := by
  apply eq_of_testBit_eq
  intro i
  rw [CachePage.clearFlag, testBit_and, testBit_and, testBit_two_pow_sub_succ hflag]
  cases flag.testBit i <;> simp

lemma clearFlag_and_other (c : CachePage) {other : Nat} (h : c.flags &&& other = 0) :
    (c.clearFlag flag).flags &&& other = 0 := by
  rw [CachePage.clearFlag, Nat.and_right_comm, h, zero_and]

@[simp]
lemma clearFlag_key (c : CachePage) (flag : Nat) : (c.clearFlag flag).key = c.key := rfl

lemma clearFlag_dirty (c : CachePage) : (c.clearFlag dirtyFlag).dirty = false := by
  simp [CachePage.dirty, clearFlag_and c (show dirtyFlag < 2 ^ 64 by decide)]

lemma clearFlag_writeback (h : c.writeback = false) : (c.clearFlag flag).writeback = false := by
  simp only [CachePage.writeback, decide_not, Bool.not_eq_false', decide_eq_true_eq] at h ⊢
  exact clearFlag_and_other c h

/-! ## One page -/

/-- With one entry for each page, an entry is changed by changing the page. -/
lemma modify_eq_map {f : CachePage → CachePage} (hnodup : (cache.map CachePage.key).Nodup)
    (hc : cache[n]? = some c) :
    cache.modify n f = cache.map fun c' => if c'.key = c.key then f c' else c' := by
  induction cache generalizing n with
  | nil => cases hc
  | cons c0 cache ih =>
    rw [map_cons, nodup_cons] at hnodup
    cases n with
    | zero =>
      obtain rfl : c0 = c := Option.some_inj.mp hc
      have hrest : cache.map (fun c' => if c'.key = c0.key then f c' else c') = cache := by
        refine (map_congr_left fun c' hc' => if_neg fun heq => hnodup.1 ?_).trans (map_id cache)
        exact heq ▸ mem_map_of_mem hc'
      rw [map_cons, if_pos rfl, hrest]
      rfl
    | succ n =>
      have hne : c0.key ≠ c.key := fun heq =>
        hnodup.1 (heq ▸ mem_map_of_mem (mem_of_getElem? hc))
      rw [map_cons, if_neg hne, ← ih hnodup.2 hc]
      rfl

lemma SyncReady.unique (h : SyncReady sector cache) (hc : c ∈ cache) (hc' : c' ∈ cache)
    (hkey : c'.key = c.key) : c' = c :=
  inj_on_of_nodup_map h.nodup hc' hc hkey

lemma Synced.none (h : ∀ c ∈ s.1.cache, sel c.key → c.dirty = false) :
    Synced fails sector sel s s := by
  have hno : ∀ c ∈ s.1.cache, (sel c.key && c.dirty) = false := by
    intro c hc
    cases hsel : sel c.key with
    | false => rfl
    | true => exact h c hc hsel
  refine ⟨?_, fun c hc hsel hflushed => ?_, fun _ _ => rfl, rfl, ?_⟩
  · refine ((map_congr_left fun c hc => if_neg ?_).trans (map_id _)).symm
    rw [Flushed, ← Bool.and_assoc, hno c hc]
    simp
  · rw [Flushed, h c hc hsel] at hflushed
    cases hflushed
  · have hzero : (s.1.cache.countP fun c => sel c.key && c.dirty && fails (sector c.key)) = 0 := by
      rw [countP_eq_zero]
      intro c hc
      rw [hno c hc]
      exact Bool.false_ne_true
    rw [hzero, add_zero]

lemma SyncReady.modify (h : SyncReady sector cache) (hc : cache[n]? = some c)
    (f : CachePage → CachePage) :
    cache.modify n f = cache.map fun c' => if c'.key = c.key then f c else c' := by
  rw [modify_eq_map h.nodup hc]
  refine map_congr_left fun c' hc' => ?_
  split_ifs with hkey
  · rw [h.unique (mem_of_getElem? hc) hc' hkey]
  · rfl

lemma SyncReady.unmark (h : SyncReady sector cache) (hc : c ∈ cache) :
    (c.setFlag writebackFlag).clearFlag writebackFlag = c := by
  obtain ⟨hidle, hword⟩ := h.idle c hc
  refine clearFlag_setFlag (by decide) hword ?_
  simpa [CachePage.writeback] using hidle

section

variable (h : SyncReady sector s.1.cache) (hc : s.1.cache[n]? = some c)
include h hc

lemma syncPage_failed (hdirty : c.dirty) (hfail : fails (sector c.key)) :
    syncPage fails (sector c.key) n s = (s.1, s.2 + 1) := by
  have hmem : c ∈ s.1.cache := mem_of_getElem? hc
  have hcache : (s.1.cache.modify n (·.setFlag writebackFlag)).modify n
      (·.clearFlag writebackFlag) = s.1.cache := by
    rw [modify_modify_eq, h.modify hc]
    refine (map_congr_left fun c' hc' => ?_).trans (map_id _)
    split_ifs with hkey
    · exact (h.unmark hmem).trans (h.unique hmem hc' hkey).symm
    · rfl
  unfold syncPage
  rw [hc]
  dsimp only
  rw [if_pos ⟨hdirty, by simp [(h.idle c hmem).1]⟩]
  simp only [ahciWrite, hfail, if_true, FsState.modifyEntry, hcache, Bool.false_eq_true, if_false]

lemma syncPage_written (hdirty : c.dirty) (hfail : ¬ fails (sector c.key)) :
    syncPage fails (sector c.key) n s = ({ s.1 with
        cache := s.1.cache.map fun c' => if c'.key = c.key then c.clearFlag dirtyFlag else c'
        disk := fun p =>
          if sector c.key * 512 ≤ p ∧ p < sector c.key * 512 + 4096 then
            s.1.mem (direct c.addr + (p - sector c.key * 512))
          else s.1.disk p }, s.2) := by
  have hmem : c ∈ s.1.cache := mem_of_getElem? hc
  have hcache : ((s.1.cache.modify n (·.setFlag writebackFlag)).modify n
      (·.clearFlag writebackFlag)).modify n (·.clearFlag dirtyFlag) =
      s.1.cache.map fun c' => if c'.key = c.key then c.clearFlag dirtyFlag else c' := by
    rw [modify_modify_eq, modify_modify_eq, h.modify hc]
    simp only [Function.comp_apply, h.unmark hmem]
  unfold syncPage
  rw [hc]
  dsimp only
  rw [if_pos ⟨hdirty, by simp [(h.idle c hmem).1]⟩]
  simp only [ahciWrite, hfail, Bool.false_eq_true, if_false, FsState.modifyEntry, hcache, if_true]

lemma syncPage_synced :
    Synced fails sector (fun k => k = c.key) s (syncPage fails (sector c.key) n s) := by
  have hmem : c ∈ s.1.cache := mem_of_getElem? hc
  have hunique : ∀ c' ∈ s.1.cache, c'.key = c.key → c' = c := fun c' hc' => h.unique hmem hc'
  have hcount : (s.1.cache.countP fun c' =>
      decide (c'.key = c.key) && c'.dirty && fails (sector c'.key)) =
      if c.dirty ∧ fails (sector c.key) then 1 else 0 := by
    split_ifs with hand
    · rw [← count_eq_one_of_mem h.nodup (mem_map_of_mem hmem), List.count, countP_map]
      refine countP_congr fun c' hc' => ?_
      simp only [Function.comp, Bool.and_eq_true, decide_eq_true_eq, beq_iff_eq]
      refine ⟨fun h => h.1.1, fun hkey => ?_⟩
      rw [hunique c' hc' hkey]
      exact ⟨⟨rfl, hand.1⟩, hand.2⟩
    · rw [countP_eq_zero]
      intro c' hc'
      simp only [Bool.and_eq_true, decide_eq_true_eq, not_and]
      rintro ⟨hkey, hdirty⟩ hfail
      rw [hunique c' hc' hkey] at hdirty hfail
      exact hand ⟨hdirty, hfail⟩
  by_cases hdirty : c.dirty
  · by_cases hfail : fails (sector c.key)
    · rw [syncPage_failed h hc hdirty hfail]
      have hno : ∀ c' ∈ s.1.cache, c'.key = c.key → Flushed fails sector c' = false := by
        intro c' hc' hkey
        rw [hunique c' hc' hkey, Flushed, hfail]
        simp
      refine ⟨?_, fun c' hc' hsel hflushed => ?_, fun _ _ => rfl, rfl, ?_⟩
      · refine ((map_congr_left fun c' hc' => if_neg ?_).trans (map_id _)).symm
        simp only [Bool.and_eq_true, decide_eq_true_eq, not_and]
        intro hkey
        rw [hno c' hc' hkey]
        exact Bool.false_ne_true
      · rw [hno c' hc' (of_decide_eq_true hsel)] at hflushed
        cases hflushed
      · rw [hcount, if_pos ⟨hdirty, hfail⟩]
    · rw [syncPage_written h hc hdirty hfail]
      have hyes : Flushed fails sector c = true := by simp [Flushed, hdirty, hfail]
      refine ⟨?_, fun c' hc' hsel hflushed d hd => ?_, fun p hp => ?_, rfl, ?_⟩
      · refine map_congr_left fun c' hc' => ?_
        by_cases hkey : c'.key = c.key
        · rw [hunique c' hc' hkey]
          simp [hyes]
        · simp [hkey]
      · rw [hunique c' hc' (of_decide_eq_true hsel)]
        dsimp only
        rw [if_pos (by omega), Nat.add_sub_cancel_left]
      · exact if_neg (hp c hmem (decide_eq_true rfl) hyes)
      · rw [hcount, if_neg fun hand => hfail hand.2]
        rfl
  · have hskip : syncPage fails (sector c.key) n s = s := by
      unfold syncPage
      rw [hc]
      exact if_neg fun hand => hdirty hand.1
    rw [hskip]
    apply Synced.none
    intro c' hc' hkey
    rw [hunique c' hc' (of_decide_eq_true hkey)]
    exact Bool.not_eq_true _ ▸ hdirty

end

/-! ## One page after the other -/

section

variable (h : Synced fails sector sel s s')
include h

/-- The pages are the same, and again nothing is being written. -/
lemma Synced.ready (hready : SyncReady sector s.1.cache) :
    s'.1.cache.map CachePage.key = s.1.cache.map CachePage.key ∧ SyncReady sector s'.1.cache := by
  have hkeys : s'.1.cache.map CachePage.key = s.1.cache.map CachePage.key := by
    rw [h.cache, map_map]
    refine map_congr_left fun c _ => ?_
    simp only [Function.comp]
    split_ifs <;> rfl
  have horigin : ∀ c ∈ s'.1.cache, ∃ c0 ∈ s.1.cache, c.key = c0.key := by
    intro c hc
    have hmem : c.key ∈ s.1.cache.map CachePage.key := hkeys ▸ mem_map_of_mem hc
    obtain ⟨c0, hc0, heq⟩ := mem_map.mp hmem
    exact ⟨c0, hc0, heq.symm⟩
  refine ⟨hkeys, hkeys ▸ hready.nodup, fun c hc => ?_, fun c hc c' hc' hne => ?_⟩
  · rw [h.cache] at hc
    obtain ⟨c0, hc0, rfl⟩ := mem_map.mp hc
    obtain ⟨hidle, hword⟩ := hready.idle c0 hc0
    split_ifs
    · exact ⟨clearFlag_writeback hidle, clearFlag_word c0 dirtyFlag⟩
    · exact ⟨hidle, hword⟩
  · obtain ⟨c0, hc0, hkey⟩ := horigin c hc
    obtain ⟨c0', hc0', hkey'⟩ := horigin c' hc'
    rw [hkey, hkey'] at hne ⊢
    exact hready.apart c0 hc0 c0' hc0' hne

lemma Synced.congr (heq : ∀ c ∈ s.1.cache, sel c.key = sel' c.key) :
    Synced fails sector sel' s s' := by
  refine ⟨h.cache.trans (map_congr_left fun c hc => by rw [heq c hc]),
    fun c hc hsel => h.written c hc (heq c hc ▸ hsel),
    fun p hp => h.kept p fun c hc hsel => hp c hc (heq c hc ▸ hsel), h.rest, ?_⟩
  rw [h.failed]
  congr 1
  exact countP_congr fun c hc => by rw [heq c hc]

lemma Synced.mem_iff (hsel : sel c.key = false) : c ∈ s'.1.cache ↔ c ∈ s.1.cache := by
  rw [h.cache, mem_map]
  constructor
  · rintro ⟨c0, hc0, heq⟩
    split_ifs at heq with hflushed
    · rw [← heq, clearFlag_key] at hsel
      rw [hsel] at hflushed
      cases hflushed
    · exact heq ▸ hc0
  · intro hc
    exact ⟨c, hc, if_neg (by simp [hsel])⟩

end

lemma countP_or {α : Type*} {p q : α → Bool} (l : List α) (h : ∀ a ∈ l, ¬ (p a ∧ q a)) :
    l.countP (fun a => p a || q a) = l.countP p + l.countP q := by
  induction l with
  | nil => rfl
  | cons a l ih =>
    have hhead := h a mem_cons_self
    rw [countP_cons, countP_cons, countP_cons, ih fun a' ha' => h a' (mem_cons_of_mem a ha')]
    revert hhead
    cases p a <;> cases q a <;> simp <;> omega

lemma Synced.trans (h : Synced fails sector sel s s') (h' : Synced fails sector sel' s' s'')
    (hready : SyncReady sector s.1.cache) (hdisjoint : ∀ k, sel k → sel' k = false) :
    Synced fails sector (fun k => sel k || sel' k) s s'' := by
  have hmem : s'.1.mem = s.1.mem := by rw [h.rest]
  have hother : ∀ k, sel' k → sel k = false := by
    intro k hk
    by_contra hsel
    rw [hdisjoint k (Bool.eq_true_of_not_eq_false hsel)] at hk
    cases hk
  refine ⟨?_, fun c hc hsel hflushed d hd => ?_, fun p hp => ?_, ?_, ?_⟩
  · rw [h'.cache, h.cache, map_map]
    refine map_congr_left fun c _ => ?_
    simp only [Function.comp]
    cases hsel : sel c.key with
    | true =>
      have hsel' := hdisjoint _ hsel
      by_cases hflushed : Flushed fails sector c <;> simp [hflushed, hsel']
    | false => simp
  · cases hsel1 : sel c.key with
    | true =>
      rw [h'.kept, h.written c hc hsel1 hflushed d hd]
      intro c' hc' hsel' _ hin
      have hc' := (h.mem_iff (hother _ hsel')).mp hc'
      have hne : c'.key ≠ c.key := by
        intro heq
        rw [heq, hdisjoint _ hsel1] at hsel'
        cases hsel'
      have hap := hready.apart c' hc' c hc hne
      simp only [Apart] at hap
      simp only [InSectors] at hin
      omega
    | false =>
      rw [hsel1] at hsel
      rw [h'.written c ((h.mem_iff hsel1).mpr hc) hsel hflushed d hd, hmem]
  · rw [h'.kept p, h.kept p]
    · exact fun c hc hsel => hp c hc (by simp [hsel])
    · intro c hc hsel
      exact hp c ((h.mem_iff (hother _ hsel)).mp hc) (by simp [hsel])
  · rw [h'.rest, h.rest]
  · have hcount : (s'.1.cache.countP fun c => sel' c.key && c.dirty && fails (sector c.key)) =
        s.1.cache.countP fun c => sel' c.key && c.dirty && fails (sector c.key) := by
      rw [h.cache, countP_map]
      refine countP_congr fun c _ => ?_
      simp only [Function.comp]
      cases hsel : sel c.key with
      | true =>
        have hsel' := hdisjoint _ hsel
        by_cases hflushed : Flushed fails sector c <;> simp [hflushed, hsel']
      | false => simp
    rw [h'.failed, h.failed, hcount, add_assoc, ← countP_or]
    · congr 1
      refine countP_congr fun c _ => ?_
      cases sel c.key <;> cases sel' c.key <;> simp
    · intro c _ hand
      simp only [Bool.and_eq_true] at hand
      rw [hdisjoint _ hand.1.1.1] at hand
      exact Bool.false_ne_true hand.2.1.1

/-- A loop in which each round deals with one page. -/
lemma foldl_synced {α : Type*} {step : FsState × Nat → α → FsState × Nat} {key : α → Nat × Nat}
    (is : List α) (hnodup : (is.map key).Nodup) (hready : SyncReady sector s.1.cache)
    (hstep : ∀ s' : FsState × Nat, SyncReady sector s'.1.cache →
      s'.1.cache.map CachePage.key = s.1.cache.map CachePage.key → ∀ i ∈ is,
        Synced fails sector (fun k => k = key i) s' (step s' i)) :
    Synced fails sector (fun k => k ∈ is.map key) s (is.foldl step s) := by
  induction is generalizing s with
  | nil => exact Synced.none fun c _ hsel => absurd (of_decide_eq_true hsel) not_mem_nil
  | cons i is ih =>
    rw [map_cons, nodup_cons] at hnodup
    have hfirst := hstep s hready rfl i mem_cons_self
    obtain ⟨hkeys, hready'⟩ := hfirst.ready hready
    have hrest := ih hnodup.2 hready' fun s' hs' hk j hj =>
      hstep s' hs' (hk.trans hkeys) j (mem_cons_of_mem i hj)
    refine (hfirst.trans hrest hready fun k hk => ?_).congr fun c _ => ?_
    · rw [of_decide_eq_true hk]
      exact decide_eq_false hnodup.1
    · simp [mem_cons]

/-! ## The loops -/

variable {st : FsState} {inode : Inode} {inodeTable : Nat → Inode}

lemma dfsFileSync_synced (hready : SyncReady sector st.cache)
    (hsector : ∀ i, sector (inode.inodeNum, i) = syncSector inode i)
    (hpages : filePages inode.size < 2 ^ 31) : ∃ s', dfsFileSync fails st inode = some s' ∧
      Synced fails sector (fun k => k.1 = inode.inodeNum ∧
        k.2 < filePages inode.size) (st, 0) s' := by
  refine ⟨_, if_neg (not_le.mpr hpages), ?_⟩
  have hnodup : ((range (filePages inode.size)).map fun i => (inode.inodeNum, i)).Nodup :=
    nodup_range.map fun i j hij => (Prod.mk.inj hij).2
  refine (foldl_synced _ hnodup hready fun s hs _ i _ => ?_).congr fun c _ => ?_
  · cases hfind : s.1.cache.findIdx? fun c => c.id = inode.inodeNum ∧ c.indx = i with
    | none =>
      refine Synced.none fun c hc hkey => ?_
      obtain ⟨hid, hindx⟩ := Prod.mk.inj (of_decide_eq_true hkey)
      have hno := findIdx?_eq_none_iff.mp hfind c hc
      exact absurd ⟨hid, hindx⟩ (of_decide_eq_false hno)
    | some n =>
      obtain ⟨hn, hkey, -⟩ := findIdx?_eq_some_iff_getElem.mp hfind
      obtain ⟨hid, hindx⟩ := of_decide_eq_true hkey
      have hc : s.1.cache[n]? = some s.1.cache[n] := getElem?_eq_getElem hn
      have hk : s.1.cache[n].key = (inode.inodeNum, i) := by rw [CachePage.key, hid, hindx]
      have hone : Synced fails sector _ _ _ := syncPage_synced hs hc
      rw [hk, hsector] at hone
      exact hone
  · simp only [mem_map, mem_range, decide_eq_decide]
    constructor
    · rintro ⟨i, hi, heq⟩
      rw [← heq]
      exact ⟨rfl, hi⟩
    · rintro ⟨hid, hindx⟩
      exact ⟨c.key.2, hindx, by rw [← hid]⟩

lemma sysSync_synced (hready : SyncReady sector st.cache)
    (hsector : ∀ k, sector k = syncSector (inodeTable k.1) k.2) :
    Synced fails sector (fun _ => true) (st, 0) (sysSync fails inodeTable st) := by
  have hkeys : (range st.cache.length).map
      (fun n => (st.cache.map CachePage.key)[n]?.getD (0, 0)) = st.cache.map CachePage.key := by
    apply ext_getElem (by simp)
    intro n h1 h2
    simp only [length_map] at h2
    simp [h2]
  refine (foldl_synced _ (hkeys.symm ▸ hready.nodup) hready fun s hs hsame n hn => ?_).congr
    fun c hc => ?_
  · have hlength : n < s.1.cache.length := by
      have hle := congrArg length hsame
      simp only [length_map] at hle
      exact hle ▸ mem_range.mp hn
    have hc : s.1.cache[n]? = some s.1.cache[n] := getElem?_eq_getElem hlength
    have hk : (st.cache.map CachePage.key)[n]?.getD (0, 0) = s.1.cache[n].key := by
      rw [← hsame, getElem?_map, hc]
      rfl
    have hone : Synced fails sector _ _ _ := syncPage_synced hs hc
    rw [hk]
    rw [hsector] at hone
    rw [hc]
    exact hone
  · rw [hkeys]
    exact decide_eq_true (mem_map_of_mem hc)

end DestinX.Fs
