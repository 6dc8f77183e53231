import DestinX.Fs.OneEntry

/-!
# Looking up a path

`dfs_get_inode` of `fs/dfs.c`: at every slash it measures the component behind it, loads the
block of the current directory and compares the names in it with the component.

The length of the component only grows from one to the next; names are compared up to this
length, so longer names match as well; and of several matches the last one counts. To read
behind the terminator of the path, or to count beyond an `int`, has no result.
-/

namespace DestinX.Fs

open Base List Nat

/-- An inode of `dfs_ctx.inode_table`. -/
structure TableInode extends Inode where
  type : Nat
  deriving DecidableEq, Repr

def dfsTypeDir : Nat := 2

def slash : UInt8 := 47

/-- `memcmp` of memory with bytes. -/
def memcmp (m : Mem) (a : Nat) : List UInt8 → Int
  | [] => 0
  | b :: bs => if m a ≠ b then (if m a < b then -1 else 1) else memcmp m (a + 1) bs

/-- The rounds of the inner loop, over what is left behind `path[len]`. -/
def endOfName : List UInt8 → Nat → Nat
  | [], len => len
  | c :: path, len => if c = slash then len else endOfName path (len + 1)

/-- The inner loop. It begins with `path[len]`. -/
def nameLen (path : List UInt8) (len : Nat) : Option Nat :=
  if path.length < len then none
  else if endOfName (path.drop len) len < 2 ^ 31 then some (endOfName (path.drop len) len)
  else none

/-- The loop over the entries in the buffer: `inode_num` of the last one that matches. -/
def searchDir (m : Mem) (buf total : Nat) (name : List UInt8) : Option Nat :=
  (List.range total).foldl (fun found i =>
      if memcmp m (buf + 64 * i + 8) name = 0 then some (load32 m (buf + 64 * i)) else found) none

/-- `memset` of the page. -/
def clearPage (st : FsState) (paddr : Nat) : FsState :=
  { st with mem := fun a =>
      if direct paddr ≤ a ∧ a < direct paddr + 4096 then 0 else st.mem a }

/-- The sector at which the block of an inode starts. -/
def TableInode.lba (inode : TableInode) : Nat := inode.startBlock * 8 % 2 ^ 64

/-- The outer loop, with `path` and `cur_inode` as what is left of the path and the index of the
inode. -/
def lookupLoop (table : Nat → TableInode) (buf : Nat) :
    List UInt8 → Nat → Nat → FsState → Option (FsState × Option Nat)
  | [], _, cur, st => some (pmmFreePage st buf, some cur)
  | c :: path, len, cur, st =>
    if c ≠ slash then lookupLoop table buf path len cur st
    else
      (nameLen path len).bind fun len' =>
        if (table cur).type = dfsTypeDir ∧ path ≠ [] then
          let r := ahciRead st (table cur).lba buf
          if r.2 then
            match searchDir r.1.mem (direct buf) ((table cur).size / 64 % 2 ^ 32)
                (path.take len') with
            | some k => lookupLoop table buf path len' k r.1
            | none => some (pmmFreePage r.1 buf, none)
          else some (pmmFreePage r.1 buf, none)
        else some (pmmFreePage st buf, none)

/-- `dfs_get_inode`: the state and the index of the inode. -/
def dfsGetInode (table : Nat → TableInode) (st : FsState) (path : List UInt8) :
    Option (FsState × Option Nat) :=
  let p := pmmAllocPage st
  lookupLoop table p.1 path 0 1 (clearPage p.2 p.1)

/-! ## What a path means -/

/-- `dir_entry_t`, with the 56 bytes of the name. -/
structure DirEntry where
  inodeNum : Nat
  name : List UInt8
  deriving DecidableEq, Repr

def dirEntry (disk : Nat → UInt8) (inode : TableInode) (i : Nat) : DirEntry :=
  ⟨load32 disk (inode.lba * 512 + 64 * i),
    (List.range 56).map fun j => disk (inode.lba * 512 + 64 * i + 8 + j)⟩

/-- The entries in the block of a directory. -/
def dirEntries (disk : Nat → UInt8) (inode : TableInode) : List DirEntry :=
  (List.range (inode.size / 64)).map (dirEntry disk inode)

/-- The name of the entry is `c`, padded with zeros. -/
def DirEntry.Named (e : DirEntry) (c : List UInt8) : Prop :=
  c.length ≤ 56 ∧ e.name = c ++ List.replicate (56 - c.length) 0

instance (e : DirEntry) (c : List UInt8) : Decidable (e.Named c) :=
  inferInstanceAs (Decidable (_ ∧ _))

/-- The inode that a directory has under a name. -/
def entryOf (disk : Nat → UInt8) (inode : TableInode) (c : List UInt8) : Option Nat :=
  ((dirEntries disk inode).find? fun e => e.Named c).map DirEntry.inodeNum

/-- Follow the components, one after the other. -/
def follow (table : Nat → TableInode) (disk : Nat → UInt8) : Nat → List (List UInt8) → Option Nat
  | cur, [] => some cur
  | cur, c :: cs =>
    if (table cur).type = dfsTypeDir then
      (entryOf disk (table cur) c).bind fun k => follow table disk k cs
    else none

/-- The path with these components. -/
def joinPath : List (List UInt8) → List UInt8
  | [] => []
  | c :: cs => slash :: (c ++ joinPath cs)

structure IsComponent (c : List UInt8) : Prop where
  nonempty : c ≠ []
  noSlash : slash ∉ c
  noZero : 0 ∉ c

/-- Every directory fits into one block. -/
def OneBlock (table : Nat → TableInode) : Prop :=
  ∀ k, (table k).type = dfsTypeDir → (table k).size ≤ 4096

/-! ## When the code follows it -/

/-- The name begins with the component. Of a component that is longer than a name, its first 56
bytes are compared. -/
def DirEntry.Begins (e : DirEntry) (c : List UInt8) : Prop := e.name.take c.length = c.take 56

instance (e : DirEntry) (c : List UInt8) : Decidable (e.Begins c) :=
  inferInstanceAs (Decidable (_ = _))

/-- Of the entries whose names begin with the component, the last one has this name. -/
def Unshadowed (es : List DirEntry) (c : List UInt8) : Prop :=
  (es.filter fun e => e.Begins c).getLast? = es.find? fun e => e.Named c

/-- No component on the way is shorter than the one before it (with `len` for the first one) or too
long for an `int`, and each is unshadowed in its directory. -/
def Followable (table : Nat → TableInode) (disk : Nat → UInt8) :
    Nat → Nat → List (List UInt8) → Prop
  | _, _, [] => True
  | len, cur, c :: cs =>
    len ≤ c.length ∧ c.length < 2 ^ 31 ∧ ((table cur).type = dfsTypeDir →
        Unshadowed (dirEntries disk (table cur)) c ∧
          ∀ k, entryOf disk (table cur) c = some k → Followable table disk c.length k cs)

variable {table : Nat → TableInode} {st st' : FsState} {disk : Nat → UInt8} {inode : TableInode}
  {path c : List UInt8} {cs : List (List UInt8)} {m : Mem} {r : Option Nat}
  {a buf cur len k lba paddr : Nat}

/-! ## The loops -/

lemma memcmp_eq_zero_iff (m : Mem) (a : Nat) (bs : List UInt8) :
    memcmp m a bs = 0 ↔ (List.range bs.length).map (fun j => m (a + j)) = bs := by
  induction bs generalizing a with
  | nil => exact iff_of_true rfl rfl
  | cons b bs ih =>
    have hrange : (range (b :: bs).length).map (fun j => m (a + j)) =
        m a :: (range bs.length).map (fun j => m (a + 1 + j)) := by
      rw [length_cons, range_succ_eq_map, map_cons, map_map]
      congr 1
      refine map_congr_left fun j _ => ?_
      rw [Function.comp_apply, add_right_comm, add_assoc]
    rw [hrange, cons.injEq, memcmp]
    by_cases hb : m a = b
    · rw [if_neg (not_not.mpr hb), ih]
      exact ⟨fun h => ⟨hb, h⟩, And.right⟩
    · rw [if_pos hb]
      refine iff_of_false ?_ fun h => hb h.1
      split_ifs
      · decide
      · decide

/-- A loop that keeps the last match. -/
lemma foldl_last {α β : Type*} (p : α → Prop) [DecidablePred p] (f : α → β) (l : List α)
    (found : Option β) : l.foldl (fun found x => if p x then some (f x) else found) found =
      (((l.filter fun x => p x).getLast?).map f).or found := by
  induction l generalizing found with
  | nil => rfl
  | cons x l ih =>
    rw [foldl_cons, ih]
    by_cases hx : p x
    · rw [if_pos hx, filter_cons_of_pos (by simpa using hx)]
      cases hl : l.filter fun x => p x with
      | nil => rfl
      | cons y l' => rfl
    · rw [if_neg hx, filter_cons_of_neg (by simpa using hx)]

lemma endOfName_append (hc : slash ∉ c) (h : path = [] ∨ path.head? = some slash) (len : Nat) :
    endOfName (c ++ path) len = len + c.length := by
  induction c generalizing len with
  | nil =>
    cases path with
    | nil => rfl
    | cons b path =>
      obtain rfl : b = slash := by simpa using h
      exact if_pos rfl
  | cons b c ih =>
    rw [mem_cons, not_or] at hc
    rw [cons_append, endOfName, if_neg (Ne.symm hc.1), ih hc.2, length_cons]
    omega

lemma joinPath_head (cs : List (List UInt8)) :
    joinPath cs = [] ∨ (joinPath cs).head? = some slash := by
  cases cs with
  | nil => exact .inl rfl
  | cons c cs => exact .inr rfl

/-- The length is right when the component is at least as long as the length so far. -/
lemma nameLen_append (hc : slash ∉ c) (hlen : len ≤ c.length) (hint : c.length < 2 ^ 31) :
    nameLen (c ++ joinPath cs) len = some c.length := by
  have hend : endOfName ((c ++ joinPath cs).drop len) len = c.length := by
    rw [drop_append_of_le_length hlen,
      endOfName_append (fun h => hc (mem_of_mem_drop h)) (joinPath_head cs), length_drop]
    omega
  rw [nameLen, if_neg (by rw [length_append]; omega), hend, if_pos hint]

lemma lookupLoop_skip (hc : slash ∉ c) (path : List UInt8) (len cur : Nat) (st : FsState) :
    lookupLoop table buf (c ++ path) len cur st = lookupLoop table buf path len cur st := by
  induction c with
  | nil => rfl
  | cons b c ih =>
    rw [mem_cons, not_or] at hc
    rw [cons_append, lookupLoop, if_pos (Ne.symm hc.1), ih hc.2]

/-! ## One directory -/

/-- The buffer holds the block of the directory. -/
def Holds (m : Mem) (buf : Nat) (disk : Nat → UInt8) (inode : TableInode) : Prop :=
  ∀ j < 4096, m (buf + j) = disk (inode.lba * 512 + j)

lemma load_shift {m m' : Mem} {a b : Nat} (n : Nat) (h : ∀ j < n, m (a + j) = m' (b + j)) :
    load m a n = load m' b n := by
  induction n generalizing a b with
  | zero => rw [load, load]
  | succ n ih =>
    have hhead := h 0 (by omega)
    have htail : load m (a + 1) n = load m' (b + 1) n := by
      apply ih
      intro j hj
      rw [add_right_comm, add_right_comm b]
      exact h (j + 1) (by omega)
    rw [add_zero, add_zero] at hhead
    rw [load, load, hhead, htail]

section Search

variable (hmem : Holds m buf disk inode) (hsize : inode.size ≤ 4096)

include hmem hsize

lemma Holds.inodeNum {i : Nat} (hi : i < inode.size / 64) :
    load32 m (buf + 64 * i) = load32 disk (inode.lba * 512 + 64 * i) := by
  apply load_shift
  intro j hj
  rw [add_assoc, add_assoc]
  exact hmem _ (by omega)

/-- The bytes of a name, as far as they are compared. -/
lemma Holds.name {i n : Nat} (hi : i < inode.size / 64) (hn : n ≤ 56) :
    (List.range n).map (fun j => m (buf + 64 * i + 8 + j)) =
      (dirEntry disk inode i).name.take n := by
  rw [dirEntry, ← map_take, take_range, min_eq_left hn]
  refine map_congr_left fun j hj => ?_
  have hj' := mem_range.mp hj
  simp only [add_assoc]
  exact hmem _ (by omega)

lemma Holds.begins {i : Nat} (hi : i < inode.size / 64) (h : memcmp m (buf + 64 * i + 8) c = 0) :
    (dirEntry disk inode i).Begins c := by
  rw [memcmp_eq_zero_iff] at h
  have htake := congrArg (take 56) h
  rw [← map_take, take_range, hmem.name hsize hi (min_le_left _ _)] at htake
  rw [DirEntry.Begins, ← htake, dirEntry]
  rw [← map_take, ← map_take, take_range, take_range]
  congr 2
  omega

lemma Holds.begins_iff {i : Nat} (hi : i < inode.size / 64) (hc : c.length ≤ 56) :
    memcmp m (buf + 64 * i + 8) c = 0 ↔ (dirEntry disk inode i).Begins c := by
  rw [memcmp_eq_zero_iff, hmem.name hsize hi hc, DirEntry.Begins, take_of_length_le hc]

/-- The loop finds the entry with this name if no other one shadows it. -/
lemma Holds.searchDir (h : Unshadowed (dirEntries disk inode) c) :
    searchDir m buf (inode.size / 64 % 2 ^ 32) c = entryOf disk inode c := by
  rw [mod_eq_of_lt (by omega), Fs.searchDir, foldl_last
    (fun i => memcmp m (buf + 64 * i + 8) c = 0) (fun i => load32 m (buf + 64 * i)),
    Option.or_none, entryOf]
  by_cases hc : c.length ≤ 56
  · rw [← h, dirEntries, filter_map, getLast?_map, Option.map_map]
    have hfilter : ((range (inode.size / 64)).filter fun i =>
        memcmp m (buf + 64 * i + 8) c = 0) = (range (inode.size / 64)).filter
          ((fun e => decide (DirEntry.Begins e c)) ∘ dirEntry disk inode) := by
      refine filter_congr fun i hi => ?_
      rw [Function.comp_apply, decide_eq_decide]
      exact hmem.begins_iff hsize (mem_range.mp hi) hc
    rw [hfilter]
    refine Option.map_congr fun i hi => ?_
    have hin := (mem_filter.mp (mem_of_getLast? hi)).1
    exact hmem.inodeNum hsize (mem_range.mp hin)
  · -- No entry has such a name, so none begins with it either.
    have hnone : (dirEntries disk inode).find? (fun e => e.Named c) = none := by
      rw [find?_eq_none]
      intro e _ he
      exact hc (of_decide_eq_true he).1
    rw [Unshadowed, hnone, getLast?_eq_none_iff, filter_eq_nil_iff] at h
    have hempty : ((range (inode.size / 64)).filter fun i =>
        memcmp m (buf + 64 * i + 8) c = 0) = [] := by
      rw [filter_eq_nil_iff]
      intro i hi hmatch
      refine h _ (mem_map_of_mem hi) (decide_eq_true ?_)
      exact hmem.begins hsize (mem_range.mp hi) (of_decide_eq_true hmatch)
    rw [hempty, hnone]
    rfl

end Search

/-! ## The whole path -/

lemma ahciRead_holds (h : ∀ b ∈ st.faults, b = false) (inode : TableInode) (buf : Nat) :
    (ahciRead st inode.lba buf).2 = true ∧ (∀ b ∈ (ahciRead st inode.lba buf).1.faults, b = false) ∧
      Holds (ahciRead st inode.lba buf).1.mem (direct buf) st.disk inode := by
  have hhead : st.faults.head? ≠ some true := by
    intro hhead
    have hfalse := h true (mem_of_head? hhead)
    cases hfalse
  have hfaults : (ahciRead st inode.lba buf).1.faults = st.faults.tail := by
    unfold ahciRead
    split
    · next hst => rw [hst] at hhead ⊢; rfl
    · rfl
  obtain ⟨hbad, -, -⟩ | ⟨-, hok, hmem⟩ := ahciRead_mem st inode.lba buf
  · exact absurd hbad hhead
  · refine ⟨hok, fun b hb => h b (mem_of_mem_tail (hfaults ▸ hb)), fun j hj => ?_⟩
    have hin : direct buf ≤ direct buf + j ∧ direct buf + j < direct buf + 4096 := by omega
    simp only [hmem, if_pos hin, Nat.add_sub_cancel_left]

/-- What the lookup leaves as it is, once it has given its page back. -/
def FsState.files (st : FsState) :
    List Nat × List CachePage × (Nat → UInt8) × (List UInt8 → Option Inode) :=
  (st.free, st.cache, st.disk, st.inodes)

lemma pmmFreePage_files (h : st'.files = st.files) (buf : Nat) :
    (pmmFreePage st' buf).files = (pmmFreePage st buf).files := by
  obtain ⟨hfree, hrest⟩ := Prod.mk.inj h
  unfold pmmFreePage
  split_ifs
  · exact h
  · exact congrArg₂ Prod.mk (congrArg (buf :: ·) hfree) hrest

lemma ahciRead_files (st : FsState) (lba buf : Nat) : (ahciRead st lba buf).1.files = st.files := by
  obtain ⟨hcache, hfree, hdisk, hinodes⟩ := ahciRead_frame st lba buf
  rw [FsState.files, hcache, hfree, hdisk, hinodes]
  rfl

lemma lookupLoop_slash (path : List UInt8) (len cur : Nat) (st : FsState) :
    lookupLoop table buf (slash :: path) len cur st = (nameLen path len).bind fun len' =>
        if (table cur).type = dfsTypeDir ∧ path ≠ [] then
          if (ahciRead st (table cur).lba buf).2 then
            match searchDir (ahciRead st (table cur).lba buf).1.mem (direct buf)
                ((table cur).size / 64 % 2 ^ 32) (path.take len') with
            | some k => lookupLoop table buf path len' k (ahciRead st (table cur).lba buf).1
            | none => some (pmmFreePage (ahciRead st (table cur).lba buf).1 buf, none)
          else some (pmmFreePage (ahciRead st (table cur).lba buf).1 buf, none)
        else some (pmmFreePage st buf, none) := by rw [lookupLoop, if_neg (not_not.mpr rfl)]

/-- However the loop ends, it gives the page back and leaves the rest of the file system. -/
lemma lookupLoop_files (h : lookupLoop table buf path len cur st = some (st', r)) :
    st'.files = (pmmFreePage st buf).files := by
  induction path generalizing len cur st with
  | nil =>
    obtain ⟨rfl, -⟩ := Prod.mk.inj (Option.some.inj h)
    rfl
  | cons b path ih =>
    by_cases hb : b = slash
    · subst hb
      rw [lookupLoop_slash] at h
      obtain ⟨len', -, h⟩ := Option.bind_eq_some_iff.mp h
      have hread := ahciRead_files st (table cur).lba buf
      split_ifs at h
      · cases hfound : searchDir (ahciRead st (table cur).lba buf).1.mem (direct buf)
            ((table cur).size / 64 % 2 ^ 32) (path.take len') with
        | some k =>
          rw [hfound] at h
          exact (ih h).trans (pmmFreePage_files hread buf)
        | none =>
          rw [hfound] at h
          obtain ⟨rfl, -⟩ := Prod.mk.inj (Option.some.inj h)
          exact pmmFreePage_files hread buf
      · obtain ⟨rfl, -⟩ := Prod.mk.inj (Option.some.inj h)
        exact pmmFreePage_files hread buf
      · obtain ⟨rfl, -⟩ := Prod.mk.inj (Option.some.inj h)
        rfl
    · rw [lookupLoop, if_pos hb] at h
      exact ih h

lemma clearPage_files (st : FsState) (buf : Nat) : (clearPage st buf).files = st.files := by
  rw [clearPage, FsState.files, FsState.files]

lemma alloc_free_files (hzero : 0 ∉ st.free) :
    (pmmFreePage (pmmAllocPage st).2 (pmmAllocPage st).1).files = st.files := by
  unfold pmmAllocPage
  cases hfree : st.free with
  | nil => rfl
  | cons f free =>
    have hf : f ≠ 0 := fun heq => hzero (hfree ▸ heq ▸ mem_cons_self)
    simp only [pmmFreePage, if_neg hf, FsState.files, hfree]

/-- Whatever it finds, the lookup leaves the free pages, the cache and the disk as they were. -/
lemma dfsGetInode_files (hzero : 0 ∉ st.free) (h : dfsGetInode table st path = some (st', r)) :
    st'.files = st.files :=
  calc st'.files = (pmmFreePage (clearPage (pmmAllocPage st).2 (pmmAllocPage st).1)
          (pmmAllocPage st).1).files := lookupLoop_files h
    _ = (pmmFreePage (pmmAllocPage st).2 (pmmAllocPage st).1).files :=
        pmmFreePage_files (clearPage_files _ _) _
    _ = st.files := alloc_free_files hzero

lemma ne_nil_of_component (hc : IsComponent c) (cs : List (List UInt8)) :
    c ++ joinPath cs ≠ [] := fun h => hc.nonempty (append_eq_nil_iff.mp h).1

lemma lookupLoop_follow (hdirs : OneBlock table) (hreads : ∀ b ∈ st.faults, b = false)
    (hcs : ∀ c ∈ cs, IsComponent c) (hgood : Followable table st.disk len cur cs) :
    ∃ st', lookupLoop table buf (joinPath cs) len cur st =
      some (st', follow table st.disk cur cs) := by
  induction cs generalizing len cur st with
  | nil => exact ⟨_, rfl⟩
  | cons c cs ih =>
    have hc := hcs c mem_cons_self
    obtain ⟨hlen, hint, hdir⟩ := hgood
    rw [joinPath, lookupLoop_slash, nameLen_append hc.noSlash hlen hint, Option.bind_some,
      take_left, follow]
    by_cases htype : (table cur).type = dfsTypeDir
    · obtain ⟨hunshadowed, hnext⟩ := hdir htype
      obtain ⟨hok, hfaults, hholds⟩ := ahciRead_holds hreads (table cur) buf
      have hdisk : (ahciRead st (table cur).lba buf).1.disk = st.disk :=
        (ahciRead_frame st (table cur).lba buf).2.2.1
      rw [if_pos ⟨htype, ne_nil_of_component hc cs⟩, if_pos hok, if_pos htype,
        hholds.searchDir (hdirs cur htype) hunshadowed]
      cases hentry : entryOf st.disk (table cur) c with
      | none => exact ⟨_, rfl⟩
      | some k =>
        have hrest := hnext k hentry
        rw [← hdisk] at hrest
        obtain ⟨st', hst'⟩ := ih hfaults (fun c' hc' => hcs c' (mem_cons_of_mem _ hc')) hrest
        rw [hdisk] at hst'
        refine ⟨st', ?_⟩
        show lookupLoop table buf (c ++ joinPath cs) _ _ _ = _
        rw [lookupLoop_skip hc.noSlash, hst', Option.bind_some]
    · rw [if_neg fun h => htype h.1, if_neg htype]
      exact ⟨_, rfl⟩

/-! ## What the lookup depends on -/

/-- The names in the directories end with a zero. -/
def NamesEnd (table : Nat → TableInode) (disk : Nat → UInt8) : Prop :=
  ∀ k, (table k).type = dfsTypeDir → ∀ i < (table k).size / 64,
    ∃ j < 56, disk ((table k).lba * 512 + 64 * i + 8 + j) = 0

/-- The blocks of the directories are the same. -/
def DirsSame (table : Nat → TableInode) (disk disk' : Nat → UInt8) : Prop :=
  ∀ k, (table k).type = dfsTypeDir → ∀ j < 4096,
    disk' ((table k).lba * 512 + j) = disk ((table k).lba * 512 + j)

lemma DirsSame.refl (table : Nat → TableInode) (disk : Nat → UInt8) : DirsSame table disk disk :=
  fun _ _ _ _ => rfl

lemma NamesEnd.congr {disk' : Nat → UInt8} (h : NamesEnd table disk) (hdirs : OneBlock table)
    (hsame : DirsSame table disk disk') : NamesEnd table disk' := by
  intro k hk i hi
  obtain ⟨j, hj, hzero⟩ := h k hk i hi
  have hsize := hdirs k hk
  refine ⟨j, hj, ?_⟩
  rw [add_assoc, add_assoc, hsame k hk _ (by omega), ← add_assoc, ← add_assoc]
  exact hzero

lemma memcmp_congr {m m' : Mem} {a a' : Nat} (bs : List UInt8)
    (h : ∀ j < bs.length, m' (a' + j) = m (a + j)) : memcmp m' a' bs = memcmp m a bs := by
  induction bs generalizing a a' with
  | nil => rfl
  | cons b bs ih =>
    have hhead : m' a' = m a := h 0 (by simp)
    have htail : memcmp m' (a' + 1) bs = memcmp m (a + 1) bs := by
      apply ih
      intro j hj
      rw [add_assoc, add_assoc, add_comm 1 j]
      exact h (j + 1) (by simpa using hj)
    rw [memcmp, memcmp, hhead, htail]

/-- Where the name ends, no other bytes match. -/
lemma memcmp_length {bs : List UInt8} {j : Nat} (hbs : 0 ∉ bs) (hend : m (a + j) = 0)
    (h : memcmp m a bs = 0) : bs.length ≤ j := by
  by_contra hlt
  rw [memcmp_eq_zero_iff] at h
  have hmem : m (a + j) ∈ (range bs.length).map fun j => m (a + j) :=
    mem_map_of_mem (mem_range.mpr (not_le.mp hlt))
  rw [h, hend] at hmem
  exact hbs hmem

lemma memcmp_ended {m m' : Mem} {a a' : Nat} {bs : List UInt8} (hbs : 0 ∉ bs)
    (hend : ∃ j < 56, m (a + j) = 0) (hsame : ∀ j < 56, m' (a' + j) = m (a + j)) :
    memcmp m' a' bs = 0 ↔ memcmp m a bs = 0 := by
  obtain ⟨j, hj, hzero⟩ := hend
  constructor
  · intro h
    have hlen := memcmp_length hbs ((hsame j hj).trans hzero) h
    rw [← memcmp_congr bs fun i hi => hsame i (by omega)]
    exact h
  · intro h
    have hlen := memcmp_length hbs hzero h
    rw [memcmp_congr bs fun i hi => hsame i (by omega)]
    exact h

lemma searchDir_congr {m' : Mem} {buf' : Nat} {bs : List UInt8} (hbs : 0 ∉ bs)
    (hsize : inode.size ≤ 4096)
    (hends : ∀ i < inode.size / 64, ∃ j < 56, disk (inode.lba * 512 + 64 * i + 8 + j) = 0)
    (hmem : Holds m buf disk inode) (hmem' : Holds m' buf' disk inode) :
    searchDir m' buf' (inode.size / 64 % 2 ^ 32) bs =
      searchDir m buf (inode.size / 64 % 2 ^ 32) bs := by
  rw [mod_eq_of_lt (by omega)]
  apply foldl_ext
  intro found i hi
  have hi' := mem_range.mp hi
  have hname : ∀ j < 56, m (buf + 64 * i + 8 + j) = disk (inode.lba * 512 + 64 * i + 8 + j) := by
    intro j hj
    simp only [add_assoc]
    exact hmem _ (by omega)
  have hname' : ∀ j < 56, m' (buf' + 64 * i + 8 + j) = m (buf + 64 * i + 8 + j) := by
    intro j hj
    rw [hname j hj]
    simp only [add_assoc]
    exact hmem' _ (by omega)
  have hended : ∃ j < 56, m (buf + 64 * i + 8 + j) = 0 := by
    obtain ⟨j, hj, hzero⟩ := hends i hi'
    exact ⟨j, hj, (hname j hj).trans hzero⟩
  rw [hmem'.inodeNum hsize hi', hmem.inodeNum hsize hi']
  exact if_congr (memcmp_ended hbs hended hname') rfl rfl

/-- With reads that succeed, what the loop finds depends only on the blocks of the directories. -/
lemma lookupLoop_congr {st2 : FsState} {buf2 : Nat} (hdirs : OneBlock table)
    (hends : NamesEnd table st.disk) (hsame : DirsSame table st.disk st2.disk) (hpath : 0 ∉ path)
    (hreads : ∀ b ∈ st.faults, b = false) (hreads2 : ∀ b ∈ st2.faults, b = false) :
    (lookupLoop table buf2 path len cur st2).map Prod.snd =
      (lookupLoop table buf path len cur st).map Prod.snd := by
  induction path generalizing len cur st st2 with
  | nil => rfl
  | cons b path ih =>
    rw [mem_cons, not_or] at hpath
    by_cases hb : b = slash
    · subst hb
      rw [lookupLoop_slash, lookupLoop_slash]
      cases nameLen path len with
      | none => rfl
      | some len' =>
        rw [Option.bind_some, Option.bind_some]
        by_cases hdir : (table cur).type = dfsTypeDir ∧ path ≠ []
        · obtain ⟨hok, hfaults, hholds⟩ := ahciRead_holds hreads (table cur) buf
          obtain ⟨hok2, hfaults2, hholds2⟩ := ahciRead_holds hreads2 (table cur) buf2
          have hdisk := (ahciRead_frame st (table cur).lba buf).2.2.1
          have hdisk2 := (ahciRead_frame st2 (table cur).lba buf2).2.2.1
          have hholds' : Holds (ahciRead st2 (table cur).lba buf2).1.mem (direct buf2) st.disk
              (table cur) := fun j hj => (hholds2 j hj).trans (hsame cur hdir.1 j hj)
          rw [if_pos hdir, if_pos hdir, if_pos hok, if_pos hok2,
            searchDir_congr (fun h => hpath.2 (mem_of_mem_take h)) (hdirs cur hdir.1)
              (hends cur hdir.1) hholds hholds']
          cases searchDir (ahciRead st (table cur).lba buf).1.mem (direct buf)
              ((table cur).size / 64 % 2 ^ 32) (path.take len') with
          | none => rfl
          | some k =>
            apply ih
            · rw [hdisk]
              exact hends
            · rw [hdisk, hdisk2]
              exact hsame
            · exact hpath.2
            · exact hfaults
            · exact hfaults2
        · rw [if_neg hdir, if_neg hdir]
          rfl
    · rw [lookupLoop, lookupLoop, if_pos hb, if_pos hb]
      exact ih hends hsame hpath.2 hreads hreads2

lemma lookup_start_frame (st : FsState) :
    (clearPage (pmmAllocPage st).2 (pmmAllocPage st).1).disk = st.disk ∧
      (clearPage (pmmAllocPage st).2 (pmmAllocPage st).1).faults = st.faults := by
  constructor
  · rw [clearPage, (pmmAllocPage_frame st).1.2.1]
  · unfold clearPage pmmAllocPage
    cases st.free with
    | nil => rfl
    | cons f free => rfl

lemma dfsGetInode_congr {st2 : FsState} (hdirs : OneBlock table) (hends : NamesEnd table st.disk)
    (hsame : DirsSame table st.disk st2.disk) (hpath : 0 ∉ path)
    (hreads : ∀ b ∈ st.faults, b = false) (hreads2 : ∀ b ∈ st2.faults, b = false) :
    (dfsGetInode table st2 path).map Prod.snd = (dfsGetInode table st path).map Prod.snd := by
  obtain ⟨hdisk, hfaults⟩ := lookup_start_frame st
  obtain ⟨hdisk2, hfaults2⟩ := lookup_start_frame st2
  apply lookupLoop_congr hdirs
  · rw [hdisk]
    exact hends
  · rw [hdisk, hdisk2]
    exact hsame
  · exact hpath
  · rw [hfaults]
    exact hreads
  · rw [hfaults2]
    exact hreads2

/-! ## Paths that are followed exactly -/

/-- On a tree of directories of one block and with reads that succeed, `dfs_get_inode` follows the
components of a path one by one, does not read behind the path and leaves the free pages as they
were, if the components do not get shorter and are not shadowed. -/
theorem lookup_follows_components (hdirs : OneBlock table) (hreads : ∀ b ∈ st.faults, b = false)
    (hzero : 0 ∉ st.free) (hcs : ∀ c ∈ cs, IsComponent c)
    (hgood : Followable table st.disk 0 1 cs) :
    ∃ st', dfsGetInode table st (joinPath cs) = some (st', follow table st.disk 1 cs) ∧
      st'.files = st.files := by
  obtain ⟨hdisk, hfaults⟩ := lookup_start_frame st
  rw [← hdisk] at hgood ⊢
  obtain ⟨st', hst'⟩ := lookupLoop_follow hdirs (hfaults ▸ hreads) hcs hgood
  exact ⟨st', hst', dfsGetInode_files hzero hst'⟩

/-- The root directory has a directory `ab`, and this one files `c` and `cd`. -/
def twoDirs (k : Nat) : TableInode :=
  if k = 1 then ⟨⟨1, 64, 1, 1⟩, dfsTypeDir⟩
  else if k = 5 then ⟨⟨5, 128, 2, 1⟩, dfsTypeDir⟩
  else ⟨⟨k, 0, 0, 0⟩, 1⟩

def twoDirsDisk (a : Nat) : UInt8 :=
  if a = 4096 then 5 else if a = 4104 then 97 else if a = 4105 then 98
  else if a = 8192 then 7 else if a = 8200 then 99
  else if a = 8256 then 8 else if a = 8264 then 99 else if a = 8265 then 100 else 0

def twoDirsState : FsState where
  cache := []
  free := [4096]
  faults := []
  inodes := fun _ => none
  disk := twoDirsDisk
  mem := fun _ => 0

lemma twoDirs_oneBlock : OneBlock twoDirs := by
  intro k _
  unfold twoDirs
  split_ifs
  · decide
  · decide
  · exact zero_le 4096

theorem lookup_follows_ab_cd : ∃ st',
    dfsGetInode twoDirs twoDirsState (joinPath [[97, 98], [99, 100]]) = some (st', some 8) ∧
      st'.files = twoDirsState.files := by
  have hgood : Followable twoDirs twoDirsState.disk 0 1 [[97, 98], [99, 100]] := by
    refine ⟨by decide, by decide, fun _ => ⟨by rw [Unshadowed]; decide +kernel, fun k hk => ?_⟩⟩
    have hab : entryOf twoDirsState.disk (twoDirs 1) [97, 98] = some 5 := by decide +kernel
    cases hab.symm.trans hk
    exact ⟨le_rfl, by decide, fun _ => ⟨by rw [Unshadowed]; decide +kernel, fun _ _ => trivial⟩⟩
  have hfollow : follow twoDirs twoDirsState.disk 1 [[97, 98], [99, 100]] = some 8 := by
    decide +kernel
  rw [← hfollow]
  refine lookup_follows_components twoDirs_oneBlock nofun (by decide) (fun c hc => ?_) hgood
  have hcases : c = [97, 98] ∨ c = [99, 100] := by simpa using hc
  rcases hcases with rfl | rfl <;> exact ⟨by decide, by decide, by decide⟩

/-- `/a` is not there, but the directory `ab` is found. The lookup of `/ab/c` begins to measure
`c` at its third byte, behind the terminator. -/
theorem lookup_finds_longer_name : follow twoDirs twoDirsState.disk 1 [[97]] = none ∧
      (dfsGetInode twoDirs twoDirsState (joinPath [[97]])).map Prod.snd = some (some 5) ∧
      follow twoDirs twoDirsState.disk 1 [[97, 98], [99]] = some 7 ∧
      (dfsGetInode twoDirs twoDirsState (joinPath [[97, 98], [99]])).map Prod.snd = none := by
  decide +kernel

end DestinX.Fs
