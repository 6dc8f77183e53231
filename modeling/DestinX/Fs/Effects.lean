import DestinX.Fs.OneEntry

/-!
# What the content of a file depends on

The content after the cache has grown, after writes to memory, and after a read that
`dfs_read` serves correctly.
-/

namespace DestinX.Fs

open Base

variable {st st' : FsState} {inode i : Inode} {fp : List UInt8} {m : Mem}
  {id f buffer offset size len fuel n pos : Nat}

lemma Grown.content_other (h : Grown st id st') (hne : i.inodeNum ≠ id)
    (hmem : ∀ k f, (places st.cache).lookup (i.inodeNum, k) = some f → ∀ d < 4096,
      st'.mem (direct f + d) = st.mem (direct f + d)) :
    content st' i pos = content st i pos := by
  rw [content_eq, content_eq, h.lookup_other hne, h.disk]
  cases hf : (places st.cache).lookup (i.inodeNum, pos / 4096) with
  | none => rfl
  | some f => exact hmem _ f hf _ (Nat.mod_lt _ (by norm_num))

/-- Only the number and the extent of a file matter for its content. -/
lemma content_inode (hnum : i.inodeNum = inode.inodeNum)
    (hstart : i.startBlock = inode.startBlock) : content st i pos = content st inode pos := by
  rw [content, content, hnum, hstart]

lemma Ready.lookup_not_free (h : Ready st) {p : Nat × Nat}
    (hp : (places st.cache).lookup p = some f) : f ∉ st.free := by
  rw [lookup_places] at hp
  obtain ⟨c, hc, rfl⟩ := Option.map_eq_some_iff.mp hp
  exact h.cached_not_free hc

/-- Memory matters in the frame of the page. -/
lemma content_mem (hm : ∀ f, (places st.cache).lookup (i.inodeNum, pos / 4096) = some f →
    m (direct f + pos % 4096) = st.mem (direct f + pos % 4096)) :
    content { st with mem := m } i pos = content st i pos := by
  rw [content_eq, content_eq]
  cases hf : (places st.cache).lookup (i.inodeNum, pos / 4096) with
  | none => rfl
  | some f => exact hm f hf

/-- Filling a buffer that lies apart from the frames changes no content. -/
lemma content_buffer (h : ∀ f ∈ frames st, Apart buffer len (direct f) 4096)
    (hm : ∀ a, ¬ (buffer ≤ a ∧ a < buffer + len) → m a = st.mem a) (i : Inode) (pos : Nat) :
    content { st with mem := m } i pos = content st i pos := by
  refine content_mem fun f hf => ?_
  have hap := h f (mem_frames_of_lookup hf)
  simp only [Apart] at hap
  exact hm _ (by omega)

/-! ## Reading -/

section

variable (h : Request st fp inode buffer (min size (inode.size - offset)) offset size)
  (hcond : ReadCondition st inode offset size)
  (hcall : dfsRead fuel st fp buffer offset size = some (st', n))
include h hcond hcall

/-- A read that returns the right bytes: missing pages have been loaded, then the buffer
has been filled. -/
lemma dfsRead_loaded :
    n = min size (inode.size - offset) ∧ ∃ st1 m, Extends inode 0 st st1 ∧
      st' = { st1 with mem := m } ∧ (∀ j < n, m (buffer + j) = content st inode (offset + j)) ∧
      ∀ a, ¬ (buffer ≤ a ∧ a < buffer + n) → m a = st1.mem a := by
  obtain ⟨st1, m, hreturns, hext, hbytes, hout⟩ := returns_right h hcond
  have hcall : Returns readMode st fp buffer offset size (st', n) := ⟨fuel, hcall⟩
  obtain ⟨rfl, rfl⟩ := Prod.mk.inj (hcall.unique hreturns)
  exact ⟨rfl, st1, m, hext, rfl, hbytes, hout⟩

lemma dfsRead_content (hi : i.inodeNum = inode.inodeNum → i.startBlock = inode.startBlock) :
    content st' i pos = content st i pos := by
  obtain ⟨rfl, st1, m, hext, rfl, -, hout⟩ := dfsRead_loaded h hcond hcall
  rw [content_buffer (fun f hf => h.apart f (hext.frames.mem_iff.mp hf)) hout]
  by_cases hnum : i.inodeNum = inode.inodeNum
  · rw [content_inode hnum (hi hnum), content_inode hnum (hi hnum)]
    exact hext.content pos
  · obtain ⟨id, hgrown, hid, -⟩ := transfer_grown hcall
    obtain rfl := hid inode h.found
    have hgrown : Grown st inode.inodeNum st1 :=
      ⟨hgrown.new, hgrown.disk, hgrown.inodes, hgrown.frames⟩
    refine hgrown.content_other hnum fun k f hf d hd => hext.mem _ fun g hg _ hin => ?_
    have hne : f ≠ g := fun heq => h.ready.lookup_not_free hf (heq ▸ hg)
    have hap := h.ready.apart (mem_frames_of_lookup hf) (List.mem_append_right _ hg) hne
    simp only [Apart] at hap
    omega

end

end DestinX.Fs
