import DestinX.Fs.Effects
import DestinX.Fs.Sync

/-!
# Calls during which disk reads may fail

A call that meets a disk error returns 0. The pages before the error stay loaded, and the frame
of the failed page goes back: the state is the one that loading fewer pages leaves when no disk
read fails, and what is known about such loads holds for it.
-/

namespace DestinX.Fs

open Base List Option Prod Nat

variable {st st' st1 : FsState} {inode i : Inode} {fp : List UInt8} {mode : Mode}
  {pages : Nat → Nat} {is : List Nat} {P : CachePage → Prop} {cache new : List CachePage}
  {first flags k buffer len offset size fuel n pos : Nat}

/-! ## Loading -/

/-- What loading pages of the file leaves, whether or not it came to its end. -/
structure Loaded (inode : Inode) (st st' : FsState) : Prop where
  sound : Sound st'
  frames : (frames st').Perm (frames st)
  content : ∀ i pos, (i.inodeNum = inode.inodeNum → i.startBlock = inode.startBlock) →
    content st' i pos = content st i pos
  mem : ∀ a, (∀ f ∈ Fs.frames st, ¬ (direct f ≤ a ∧ a < direct f + 4096)) → st'.mem a = st.mem a
  inodes : st'.inodes = st.inodes

lemma Loaded.refl (h : Sound st) : Loaded inode st st :=
  ⟨h, Perm.refl _, fun _ _ _ => rfl, fun _ _ => rfl, rfl⟩

lemma Added.loaded (h : Added inode (mode.marked inode st offset size) st' new) (hsound : Sound st)
    (hinodes : st'.inodes = st.inodes) (hnull : ∀ c ∈ new, c.addr ≠ 0) : Loaded inode st st' := by
  have hsame := mark_same mode inode.inodeNum (pageStart offset / 4096) (pageCount offset size)
    st.cache
  have hframes : (Fs.frames st').Perm (Fs.frames st) := by
    refine (h.frames_perm hnull).trans (Perm.of_eq ?_)
    exact congrArg (· ++ st.free) hsame.addrs
  refine ⟨Ready.of_perm hsound hframes rfl, hframes, fun i pos hi => ?_, fun a ha => ?_, hinodes⟩
  · have hsound1 : Sound (mode.marked inode st offset size) := hsound.same hsame
    exact (h.content hsound1 (CachedSame.refl st')
      (fun c hc => h.framed c hc (hnull c hc)) hi).trans
      (content_congr st hsame i pos)
  · exact h.mem a fun c hc => ha c.addr (mem_append_right _ (h.taken hc (hnull c hc)))

/-! ## Whole calls -/

lemma hit_noFaults (h : mode.hit inode st buffer offset size = some (st', n)) :
    mode.hit inode st.noFaults buffer offset size = some (st'.noFaults, n) := by
  obtain ⟨ps, hps, h⟩ := bind_eq_some_iff.mp h
  obtain ⟨m, hm, h⟩ := map_eq_some_iff.mp h
  cases h
  exact bind_eq_some_iff.mpr ⟨ps, hps, map_eq_some_iff.mpr ⟨m, hm, rfl⟩⟩

section

variable (h : Request st.noFaults fp inode buffer len offset size)
include h

lemma Request.loaded (hloaded : Loaded inode st st1)
    (hall : AllCached st1.cache inode offset (Fs.pageCount offset size)) :
    Request st1.noFaults fp inode buffer len offset size := by
  refine ⟨hloaded.sound, ?_, h.extent, h.onDisk, h.length, h.notNull, h.canonical,
    fun f hf => h.apart f (hloaded.frames.mem_iff.mp hf), h.inFile, h.positive, h.word, ?_⟩
  · exact (congrFun hloaded.inodes fp).trans h.found
  · rw [countP_eq_zero.mpr]
    · exact zero_le _
    · exact fun k hk hmiss => hall k (mem_range.mp hk) (missing_iff.mp hmiss)

/-- Loading the missing pages of a request, with an error or without. -/
lemma Request.load (hcount : Fs.pageCount offset size < 2 ^ 31)
    (hload : Ends (mode.load inode st offset size) st1) :
    Loaded inode st st1 ∧ (mode.load inode st offset size = .ok st1 →
      AllCached st1.cache inode offset (Fs.pageCount offset size)) := by
  have ho := h.offset_lt
  obtain ⟨new, hadded, hinodes, -, hframed, hall⟩ := load_added h.ready (by omega) h.startBlock_le
    hcount hload
  exact ⟨hadded.loaded h.ready hinodes (hframed h.supply), hall⟩

/-- A call that returns has loaded pages, and then it has met a disk error, or has all pages
and has copied. -/
lemma transfer_ends (hcut : cutSize inode offset size = size)
    (hcall : transfer mode fuel st fp buffer offset size = some (st', n)) :
    pageCount offset size < 2 ^ 31 ∧ ∃ st1, Loaded inode st st1 ∧ ((n = 0 ∧ st' = st1) ∨
        AllCached st1.cache inode offset (pageCount offset size) ∧
          mode.hit inode st1 buffer offset size = some (st', n)) := by
  have ho : offset < 2 ^ 64 := lt_of_le_of_lt h.offset_lt (by norm_num)
  have hasks : ∀ s : FsState, s.inodes fp = some inode →
      ¬ (buffer = 0 ∨ size = 0 ∨ ∀ i, s.inodes fp = some i → i.size < offset) := fun s hinode =>
    not_or.mpr ⟨h.notNull, not_or.mpr ⟨h.positive.ne', fun hbehind =>
      not_lt.mpr h.inFile (hbehind inode hinode)⟩⟩
  cases fuel with
  | zero => cases hcall
  | succ fuel =>
    have hfound : st.inodes fp = some inode := h.found
    obtain ⟨-, hnone⟩ | ⟨i, hi, -, -, hcount, hcases⟩ := transfer_ended hcall
    · exact absurd hnone (hasks st hfound)
    cases hfound.symm.trans hi
    rw [hcut] at hcases
    refine ⟨hcount, ?_⟩
    rcases hcases with ⟨hall, hhit⟩ | ⟨-, ⟨rfl, herror⟩ | ⟨st1, hok, hagain⟩⟩
    · rw [pageStart_div ho] at hall
      exact ⟨st, Loaded.refl h.ready, .inr ⟨miss_iff.mp hall, hhit⟩⟩
    · exact ⟨st', (h.load hcount (.inr herror)).1, .inl ⟨rfl, rfl⟩⟩
    · obtain ⟨hloaded, hall⟩ := h.load hcount (.inl hok)
      have hall := hall hok
      refine ⟨st1, hloaded, .inr ⟨hall, ?_⟩⟩
      cases fuel with
      | zero => cases hagain
      | succ fuel =>
        have hinode : st1.inodes fp = some inode := (h.loaded hloaded hall).found
        obtain ⟨-, hnone⟩ | ⟨i, hi, -, -, -, hcases⟩ := transfer_ended hagain
        · exact absurd hnone (hasks st1 hinode)
        cases hinode.symm.trans hi
        obtain ⟨-, hhit⟩ | ⟨hmiss, -⟩ := hcases
        · exact hhit
        · rw [pageStart_div ho, miss_iff.mpr hall] at hmiss
          cases hmiss

end

/-! ## What is left of the files -/

lemma cutSize_of_le (hend : offset + size ≤ inode.size) : cutSize inode offset size = size := by
  have hle : add64 offset size ≤ offset + size := mod_le _ _
  exact if_neg (by omega)

lemma Request.pageCount_eq (h : Request st fp inode buffer size offset size) :
    Fs.pageCount offset size = pagesTouched offset size := by
  have ho := h.offset_lt
  have hlen := h.canonical.len_le
  rw [Fs.pageCount_eq (by omega) h.word, pagesTouched]
  omega

lemma Loaded.request (hloaded : Loaded inode st st1)
    (h : Request st.noFaults fp inode buffer size offset size)
    (hall : AllCached st1.cache inode offset (pageCount offset size)) :
    Request st1.noFaults fp inode buffer size offset size ∧
      AllCached st1.noFaults.cache inode offset (pagesTouched offset size) :=
  ⟨h.loaded hloaded hall, h.pageCount_eq ▸ hall⟩

lemma noFaults_eq (h : st.faults = []) : st.noFaults = st := by rw [FsState.noFaults, ← h]

section

variable (hend : offset + size ≤ inode.size) (hright : WritesRight offset size)
  (hcall : dfsWrite fuel st fp buffer offset size = some (st', n))
  (hi : i.inodeNum = inode.inodeNum → i.startBlock = inode.startBlock)
include hend hright hcall hi

/-- Writing changes the bytes of the request, unless there was a disk error. -/
lemma dfsWrite_effect (h : Request st.noFaults fp inode buffer size offset size) (pos : Nat) :
    (n = 0 ∧ content st' i pos = content st i pos) ∨ (n = size ∧ content st' i pos =
        if i.inodeNum = inode.inodeNum ∧ offset ≤ pos ∧ pos < offset + size then
          st.mem (buffer + (pos - offset))
        else content st i pos) := by
  obtain ⟨-, st1, hloaded, ⟨rfl, rfl⟩ | ⟨hall, hhit⟩⟩ :=
    transfer_ends h (cutSize_of_le hend) hcall
  · exact .inl ⟨rfl, hloaded.content i pos hi⟩
  · obtain ⟨hreq, hall⟩ := hloaded.request h hall
    obtain ⟨cache', m, hm, hsame, -, hbytes, hout⟩ := hit_write hreq hall hright
    obtain ⟨hst, rfl⟩ := mk.inj (some_inj.mp ((hit_noFaults hhit).symm.trans hm))
    have hcontent : content st' i pos =
        content { st1.noFaults with cache := cache', mem := m } i pos := by
      rw [← hst]
      rfl
    refine .inr ⟨rfl, hcontent.trans ?_⟩
    by_cases hnum : i.inodeNum = inode.inodeNum
    · rw [content_inode hnum (hi hnum), hbytes pos, ← hloaded.content i pos hi,
        content_inode hnum (hi hnum)]
      simp only [hnum, true_and]
      split_ifs with hin
      · refine hloaded.mem _ fun f hf hframe => ?_
        have hap := h.apart f hf
        simp only [Apart] at hap
        omega
      · rfl
    · rw [if_neg fun hand => hnum hand.1, ← hloaded.content i pos hi]
      refine (content_congr { st1.noFaults with mem := m } hsame i pos).trans ?_
      refine content_mem fun f hf => hout _ fun p hle hlt heq => ?_
      -- the written pages are in frames of their own
      have hpage : p / 4096 < pagesTouched offset n := by
        have := (pagesTouched_bounds offset h.positive).2.1
        have := hright.1
        omega
      obtain ⟨c, hc⟩ := ne_none_iff_exists'.mp (hall _ hpage)
      have hne : f ≠ framesOf st1.noFaults inode offset (p / 4096) := by
        rw [framesOf, cachedPages_eq hc]
        rintro rfl
        have hc' : (places st1.cache).lookup (inode.inodeNum, offset / 4096 + p / 4096) =
            some c.addr := by
          rw [lookup_places]
          exact congrArg (Option.map CachePage.addr) hc
        exact hnum (lookup_injective hreq.ready.nodup hf hc').1
      have hap := hreq.ready.apart (mem_frames_of_lookup hf) (hall.framesOf_mem hpage) hne
      simp only [Apart] at hap
      omega

lemma dfsWrite_content (h : Request st fp inode buffer size offset size) (pos : Nat) :
    content st' i pos = if i.inodeNum = inode.inodeNum ∧ offset ≤ pos ∧ pos < offset + size then
        st.mem (buffer + (pos - offset))
      else content st i pos := by
  obtain ⟨fuel', st1, hst1, -⟩ := writeCorrect_of_writesRight h hend hright
  have hreturns : Returns writeMode st fp buffer offset size (st', n) := ⟨fuel, hcall⟩
  obtain ⟨-, rfl⟩ := Prod.mk.inj (hreturns.unique ⟨fuel', hst1⟩)
  have hreq := (noFaults_eq h.ready.faults).symm ▸ h
  obtain ⟨hzero, -⟩ | ⟨-, hwritten⟩ := dfsWrite_effect hend hright hcall hi hreq pos
  · exact absurd hzero h.positive.ne'
  · exact hwritten

end

end DestinX.Fs
