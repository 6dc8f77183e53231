import DestinX.Base.LinkedList
import DestinX.Base.Memory

/-!
# The virtqueue of the GPU driver

`create_virtio_gpu_queue` puts the rings into three pages and links all descriptors into a free
list. The list goes through `next`, a `uint16_t`, and its head is an `int16_t`, where -1 is the
end. The page of the available ring is found with the page mask, which gives the page before
the three.
-/

namespace DestinX.Virtio

open Base Function List

/-- The fields of `vring_desc` that the free list uses. -/
structure VringDesc where
  (flags next : Nat)

/-- `virtqueue_t` with its descriptors, as one array. -/
structure Virtqueue where
  (desc avail used rawMemoryBlock numFree : Nat)
  freeHead : Int
  table : Int → VringDesc

def int16 (x : Nat) : Int := if x < 2 ^ 15 then x else x - 2 ^ 16

def uint16 (x : Int) : Nat := (x % 2 ^ 16).toNat

/-- The loop of `create_virtio_gpu_queue`. -/
def linkDescs (table : Int → VringDesc) : Nat → Int → VringDesc
  | 0 => table
  | i + 1 => update (linkDescs table i) i { linkDescs table i i with next := uint16 (i + 1) }

/-- The block has 3 pages and holds `table` after it was cleared. -/
def createVirtioGpuQueue (table : Int → VringDesc) (paddr count : Nat) : Virtqueue where
  desc := paddr
  avail := (paddr + (2 ^ 64 - 4096)) % 2 ^ 64
  used := (paddr + 4096 * 2) % 2 ^ 64
  rawMemoryBlock := paddr
  numFree := count
  freeHead := 0
  table := update (linkDescs table (count - 1)) (count - 1 : Nat)
    { linkDescs table (count - 1) (count - 1 : Nat) with next := uint16 (-1) }

def allocDesc (q : Virtqueue) : Virtqueue × Int :=
  if q.numFree = 0 ∨ q.freeHead = -1 then (q, -1)
  else ({ q with
    freeHead := int16 (q.table q.freeHead).next
    numFree := q.numFree - 1
    table := update q.table q.freeHead ⟨0, 0⟩ }, q.freeHead)

def freeDesc (q : Virtqueue) (id : Nat) : Virtqueue :=
  { q with
    table := update q.table id { q.table id with next := uint16 q.freeHead }
    freeHead := int16 id
    numFree := (q.numFree + 1) % 2 ^ 16 }

/-- The beginning of `virtio_gpu_send_command`, with its error return: two descriptors, or
none. -/
def sendCommand (q : Virtqueue) : Virtqueue × Option (Int × Int) :=
  let r := allocDesc q
  let r' := allocDesc r.1
  if r.2 = -1 ∨ r'.2 = -1 then (if r.2 = -1 then r'.1 else freeDesc r'.1 (uint16 r.2), none)
  else (r'.1, some (r.2, r'.2))

/-! ## The rings in memory -/

/-- The descriptor table, the available ring and the used ring. -/
def Virtqueue.rings (q : Virtqueue) (n : Nat) : List (Nat × Nat) :=
  [(q.desc, 16 * n), (q.avail, 6 + 2 * n), (q.used, 6 + 8 * n)]

/-- The rings do not meet, lie in the three pages and hold the links that are written. -/
def RingsFit (q : Virtqueue) (n : Nat) : Prop :=
  (q.rings n).Pairwise (fun r r' => Apart r.1 r.2 r'.1 r'.2) ∧
  (∀ r ∈ q.rings n, q.rawMemoryBlock ≤ r.1 ∧ r.1 + r.2 ≤ q.rawMemoryBlock + 3 * 4096) ∧
  ∀ i < n, ∃ r ∈ q.rings n, r.1 ≤ q.desc + 16 * i + 14 ∧ q.desc + 16 * i + 16 ≤ r.1 + r.2

theorem virtqueue_rings_never_fit (table : Int → VringDesc) (paddr n : Nat) :
    ¬ RingsFit (createVirtioGpuQueue table paddr n) n := by
  intro hfit
  have havail := hfit.2.1 _ (mem_cons_of_mem _ mem_cons_self)
  simp only [createVirtioGpuQueue] at havail
  omega

/-- The available ring of a queue of 64 starts one page before the block. -/
theorem avail_before_block :
    (createVirtioGpuQueue (fun _ => ⟨0, 0⟩) 0x100000 64).avail = 0x100000 - 4096 ∧
      ¬ RingsFit (createVirtioGpuQueue (fun _ => ⟨0, 0⟩) 0x100000 64) 64 := by
  refine ⟨rfl, fun hfit => ?_⟩
  have havail := hfit.2.1 _ (mem_cons_of_mem _ mem_cons_self)
  exact absurd havail (by decide)

/-! ## The free list -/

/-- The descriptor behind a link. -/
def descOf (x : Int) : Option Int := if x = -1 then none else some x

def linkOf (table : Int → VringDesc) (i : Int) : Option Int := descOf (int16 (table i).next)

/-- The states of a queue with `n` descriptors, and the ids in use, into which the driver may
write. -/
inductive QueueRun (n : Nat) : Virtqueue → List Int → Prop
  | create (table : Int → VringDesc) (paddr : Nat) :
      QueueRun n (createVirtioGpuQueue table paddr n) []
  | alloc {q : Virtqueue} {live : List Int} (run : QueueRun n q live) :
      QueueRun n (allocDesc q).1
        (if (allocDesc q).2 = -1 then live else (allocDesc q).2 :: live)
  | free {q : Virtqueue} {live : List Int} (run : QueueRun n q live) (id : Nat)
      (h : (id : Int) ∈ live) : QueueRun n (freeDesc q id) (live.erase id)
  | write {q : Virtqueue} {live : List Int} (run : QueueRun n q live) {id : Int}
      (h : id ∈ live) (d : VringDesc) : QueueRun n { q with table := update q.table id d } live

/-- The free ids in the order of the list; together with those in use they are all ids. -/
structure FreeList (n : Nat) (q : Virtqueue) (free live : List Int) : Prop where
  chain : Chain (linkOf q.table) (descOf q.freeHead) free
  count : q.numFree = free.length
  all : (free ++ live).Perm ((range n).map fun i : Nat => (i : Int))

variable {n i : Nat} {q : Virtqueue} {free live : List Int} {x : Int} {table : Int → VringDesc}

lemma int16_uint16 (h : -1 ≤ x ∧ x < 2 ^ 15) : int16 (uint16 x) = x := by
  simp only [int16, uint16]
  split_ifs <;> omega

lemma linkOf_update {y : Int} {d : VringDesc} (hne : y ≠ x) :
    linkOf (update table x d) y = linkOf table y := by
  rw [linkOf, update_of_ne hne, linkOf]

lemma linkDescs_next (j : Nat) : (linkDescs table n j).next =
    if j < n then uint16 (j + 1) else (table j).next := by
  induction n with
  | zero => rfl
  | succ n ih =>
    by_cases hj : j = n
    · rw [hj, linkDescs, update_self, if_pos (Nat.lt_succ_self n)]
    · rw [linkDescs, update_of_ne (by omega), ih]
      exact if_congr (by omega) rfl rfl

lemma freeList_create (hn : 1 ≤ n) (hn' : n ≤ 32768) (table : Int → VringDesc) (paddr : Nat) :
    FreeList n (createVirtioGpuQueue table paddr n)
      ((range n).map fun i : Nat => (i : Int)) [] := by
  refine ⟨?_, by simp [createVirtioGpuQueue], by simp⟩
  have hlink : ∀ j < n, linkOf (createVirtioGpuQueue table paddr n).table j =
      if j + 1 < n then some ((j + 1 : Nat) : Int) else none := by
    intro j hj
    simp only [linkOf, createVirtioGpuQueue]
    by_cases hlast : j = n - 1
    · rw [hlast, update_self, if_neg (by omega)]
      rfl
    · rw [update_of_ne (by omega), linkDescs_next, if_pos (by omega), if_pos (by omega),
        int16_uint16 (by omega), descOf, if_neg (by omega)]
      rfl
  have hchain := chain_range (f := fun j : Nat => (j : Int)) hlink n 0 (Nat.zero_add n)
  rw [if_pos (by omega), ← range_eq_range'] at hchain
  exact hchain

section

variable (h : FreeList n q free live)
include h

lemma FreeList.bounds (hx : x ∈ free ++ live) : 0 ≤ x ∧ x < n := by
  obtain ⟨i, hi, rfl⟩ := mem_map.mp (h.all.mem_iff.mp hx)
  have hi := mem_range.mp hi
  omega

lemma FreeList.nodup : (free ++ live).Nodup :=
  h.all.nodup_iff.mpr (nodup_range.map fun _ _ he => Int.ofNat.inj he)

lemma FreeList.not_free (hx : x ∈ live) : x ∉ free :=
  fun hfree => (nodup_append.mp h.nodup).2.2 x hfree x hx rfl

/-- Another descriptor is changed. -/
lemma FreeList.frame (hx : x ∉ free) (d : VringDesc) :
    Chain (linkOf (update q.table x d)) (descOf q.freeHead) free :=
  h.chain.congr fun _ ha => linkOf_update (ne_of_mem_of_not_mem ha hx)

lemma FreeList.empty (hnone : free = []) : allocDesc q = (q, -1) := by
  apply if_pos
  left
  rw [h.count, hnone]
  rfl

lemma FreeList.pop {free' : List Int} (hsome : free = x :: free') :
    (allocDesc q).2 = x ∧ x ≠ -1 ∧ FreeList n (allocDesc q).1 free' (x :: live) := by
  subst hsome
  have hx := (h.bounds (mem_append_left _ mem_cons_self)).1
  have hhead : q.freeHead = x := by
    have hfirst := h.chain.1
    rw [descOf] at hfirst
    split_ifs at hfirst
    exact Option.some.inj hfirst
  have hcount := h.count
  rw [length_cons] at hcount
  have hnot : x ∉ free' := (nodup_cons.mp h.chain.nodup).1
  rw [allocDesc, if_neg (by omega)]
  refine ⟨hhead, by omega, ?_, by simp [hcount], perm_middle.trans h.all⟩
  simp only [hhead]
  exact h.chain.2.congr fun _ ha => linkOf_update (ne_of_mem_of_not_mem ha hnot)

lemma FreeList.push (hn : n ≤ 32768) (hi : (i : Int) ∈ live) :
    FreeList n (freeDesc q i) (i :: free) (live.erase i) := by
  have hlt := h.bounds (mem_append_right _ hi)
  have hhead : -1 ≤ q.freeHead ∧ q.freeHead < 2 ^ 15 := by
    by_cases hend : q.freeHead = -1
    · omega
    · have := h.bounds (mem_append_left _ (h.chain.mem_of_head (if_neg hend)))
      omega
  have hlen := h.all.length_eq
  have hpos := length_pos_of_mem hi
  simp only [length_append, length_map, length_range] at hlen
  refine ⟨⟨?_, ?_⟩, ?_, ?_⟩
  · exact (congrArg descOf (if_pos (by omega))).trans (if_neg (by omega))
  · have hlink : linkOf (freeDesc q i).table i = descOf q.freeHead := by
      simp only [linkOf, freeDesc, update_self, int16_uint16 hhead]
    rw [hlink]
    exact h.frame (h.not_free hi) _
  · rw [freeDesc, h.count, length_cons]
    exact Nat.mod_eq_of_lt (by omega)
  · refine (perm_middle.symm.trans ?_).trans h.all
    exact (perm_cons_erase hi).symm.append_left free

end

lemma QueueRun.freeList (hn : 1 ≤ n) (hn' : n ≤ 32768) (run : QueueRun n q live) :
    ∃ free, FreeList n q free live := by
  induction run with
  | create table paddr => exact ⟨_, freeList_create hn hn' table paddr⟩
  | alloc run ih =>
    obtain ⟨free, h⟩ := ih
    cases free with
    | nil =>
      rw [h.empty rfl]
      exact ⟨[], h⟩
    | cons x free =>
      obtain ⟨hid, hx, hpop⟩ := h.pop rfl
      rw [hid, if_neg hx]
      exact ⟨free, hpop⟩
  | free run id hid ih =>
    obtain ⟨free, h⟩ := ih
    exact ⟨_, h.push hn' hid⟩
  | write run hid d ih =>
    obtain ⟨free, h⟩ := ih
    exact ⟨free, h.frame (h.not_free hid) d, h.count, h.all⟩

/-- Along every run the free list and the ids in use divide all ids, `alloc_desc` fails exactly
when nothing is free, and a command that fails leaves the list as it was. -/
theorem virtqueue_free_list (hn : 1 ≤ n) (hn' : n ≤ 32768) (run : QueueRun n q live) :
    ∃ free, FreeList n q free live ∧ ((allocDesc q).2 = -1 ↔ free = []) ∧
      ((sendCommand q).2 = none → FreeList n (sendCommand q).1 free live) := by
  obtain ⟨free, h⟩ := run.freeList hn hn'
  refine ⟨free, h, ?_⟩
  cases free with
  | nil => simp [sendCommand, h.empty rfl, h]
  | cons x free =>
    obtain ⟨hid, hx, hpop⟩ := h.pop rfl
    refine ⟨by simp [hid, hx], fun hfail => ?_⟩
    cases free with
    | nil =>
      have hbounds := h.bounds (mem_append_left _ mem_cons_self)
      have hback : ((uint16 x : Nat) : Int) = x := by
        simp only [uint16]
        omega
      have hpush := hpop.push hn' (i := uint16 x)
        (by rw [hback]; exact mem_cons_self)
      rw [hback, erase_cons_head] at hpush
      simpa [sendCommand, hpop.empty rfl, hid, hx] using hpush
    | cons y free =>
      obtain ⟨hid', hy, -⟩ := hpop.pop rfl
      simp [sendCommand, hid, hid', hx, hy] at hfail

/-- Both descriptors of a queue of two are taken, and the second one is given back. -/
theorem virtqueue_free_list_two : ∃ q live free, FreeList 2 q free live ∧
    free = [1] ∧ live = [0] := by
  have run := (QueueRun.create (n := 2) (fun _ => ⟨0, 0⟩) 0).alloc.alloc.free 1 (by decide)
  obtain ⟨free, h, -⟩ := virtqueue_free_list (by decide) (by decide) run
  refine ⟨_, _, free, h, ?_, rfl⟩
  exact h.chain.unique ⟨rfl, rfl⟩

end DestinX.Virtio
