import DestinX.Base.Runs
import Mathlib.Data.List.Basic

/-!
# Where the memory of threads comes from

A thread has blocks of three allocators: `kmalloc` for the `thread_t` and the nodes of area
lists, `vmalloc` for the kernel stack and the save buffer, and the stack areas of its process.
The allocators are given by what they return; either may fail.

`destroy_thread` gives the kernel stack to `kfree` and forgets the buffer. The error paths of
the functions that create threads give the buffer to `kfree`. Nothing calls `vfree`.
-/

namespace DestinX.Sched

open Base Function List Option Nat

def vmallocStart : Nat := 0xFFFFC00000000000

def heapStart : Nat := 0xFFFFE00000000000

/-- The pointers of a thread that concern its memory. -/
structure ThreadBlocks where
  (kernelStackBottom sseAvxBuffer : Nat)
  deriving DecidableEq, Repr

structure ThreadMemory where
  sseAvxBufSize : Nat
  /-- The live results of `kmalloc`. -/
  blocks : List Nat
  /-- The areas of `vmalloc`. -/
  areas : List Nat
  threads : Nat → Option ThreadBlocks
  /-- What was given to `kfree` and is not a live result of `kmalloc`. -/
  foreign : List Nat

def ThreadMemory.kmalloc (m : ThreadMemory) (p : Nat) : ThreadMemory :=
  { m with blocks := p :: m.blocks }

/-- A foreign pointer leads to metadata somewhere else. -/
def ThreadMemory.kfree (m : ThreadMemory) (p : Nat) : ThreadMemory :=
  if p = 0 then m
  else if p ∈ m.blocks then { m with blocks := m.blocks.erase p }
  else { m with foreign := p :: m.foreign }

/-- What `vmalloc` gets and returns when it succeeds: a node from `kmalloc` and the
address of the area. -/
structure Varea where
  (node base : Nat)
  deriving DecidableEq, Repr

def ThreadMemory.vmalloc (m : ThreadMemory) (v : Varea) : ThreadMemory :=
  { m.kmalloc v.node with areas := v.base :: m.areas }

/-! ## Creating and destroying -/

/-- What the allocators return in one call: the thread, its buffer, its kernel stack and
the node of its user stack. -/
structure Allocations where
  thread : Option Nat
  (buffer stack : Option Varea)
  ustack : Option Nat
  deriving DecidableEq, Repr

/-- The part up to the kernel stack, which the two functions have in common. The result is
the thread with its pointers, or null. -/
def ThreadMemory.allocThread (m : ThreadMemory) (stackSize : Nat) (al : Allocations) :
    ThreadMemory × Option (Nat × ThreadBlocks) :=
  match al.thread with
  | none => (m, none)
  | some t =>
    let m₁ := m.kmalloc t
    match (if m.sseAvxBufSize = 0 then some (m₁, 0)
        else al.buffer.map fun v => (m₁.vmalloc v, v.base)) with
    | none => (m₁.kfree t, none)
    | some (m₂, buffer) =>
      match (if stackSize = 0 then none else al.stack) with
      | none => ((m₂.kfree buffer).kfree t, none)
      | some v => (m₂.vmalloc v, some (t, ⟨v.base, buffer⟩))

def ThreadMemory.setThread (m : ThreadMemory) (t : Nat) (b : Option ThreadBlocks) : ThreadMemory :=
  { m with threads := update m.threads t b }

/-- `create_thread` -/
def ThreadMemory.createThread (m : ThreadMemory) (stackSize : Nat) (al : Allocations) :
    ThreadMemory :=
  match m.allocThread stackSize al with
  | (m', none) => m'
  | (m', some (t, b)) => m'.setThread t (some b)

/-- `create_user_thread`. When there is no user stack, the kernel stack is kept. -/
def ThreadMemory.createUserThread (m : ThreadMemory) (kstackSize ustackSize : Nat)
    (al : Allocations) : ThreadMemory :=
  match m.allocThread kstackSize al with
  | (m', none) => m'
  | (m', some (t, b)) =>
    match (if ustackSize = 0 then none else al.ustack) with
    | none => (m'.kfree b.sseAvxBuffer).kfree t
    | some node => (m'.kmalloc node).setThread t (some b)

/-- `destroy_thread`. The node of the user stack is not freed. -/
def ThreadMemory.destroyThread (m : ThreadMemory) (t : Nat) : ThreadMemory :=
  match m.threads t with
  | none => m
  | some b => ((m.kfree b.kernelStackBottom).kfree t).setThread t none

/-! ## Runs -/

inductive MemoryAction where
  | createThread (stackSize : Nat) (al : Allocations)
  | createUserThread (kstackSize ustackSize : Nat) (al : Allocations)
  | destroy (t : Nat)

/-- The new blocks are in the heap and not in use; the new areas are in the region of
`vmalloc`. -/
structure Allocations.Fresh (m : ThreadMemory) (al : Allocations) : Prop where
  heap : ∀ p, (al.thread = some p ∨ (∃ v, al.buffer = some v ∧ v.node = p) ∨
    (∃ v, al.stack = some v ∧ v.node = p) ∨ al.ustack = some p) → heapStart ≤ p ∧ p ∉ m.blocks
  region : ∀ v, al.buffer = some v ∨ al.stack = some v → vmallocStart ≤ v.base ∧ v.base < heapStart

inductive MemoryStep : ThreadMemory → MemoryAction → ThreadMemory → Prop
  | createThread {m : ThreadMemory} {stackSize : Nat} {al : Allocations} (hal : al.Fresh m) :
      MemoryStep m (.createThread stackSize al) (m.createThread stackSize al)
  | createUserThread {m : ThreadMemory} {kstackSize ustackSize : Nat} {al : Allocations}
      (hal : al.Fresh m) :
      MemoryStep m (.createUserThread kstackSize ustackSize al)
        (m.createUserThread kstackSize ustackSize al)
  | destroy {m : ThreadMemory} {t : Nat} (ht : m.threads t ≠ none) :
      MemoryStep m (.destroy t) (m.destroyThread t)

/-- No threads, and any use of the allocators by others. -/
def memoryMachine : Machine ThreadMemory MemoryAction where
  start m := (∀ t, m.threads t = none) ∧ (∀ p ∈ m.blocks, heapStart ≤ p) ∧ m.foreign = []
  step := MemoryStep

/-- Everything that was given to `kfree` came from `kmalloc`. -/
def OwnBlocksFreed (m : ThreadMemory) : Prop := m.foreign = []

/-- After the buffer no allocation fails. No thread is destroyed. -/
def NoForeign (m : ThreadMemory) : MemoryAction → Prop
  | .createThread stackSize al =>
    al.thread ≠ none → m.sseAvxBufSize ≠ 0 → al.buffer ≠ none → stackSize ≠ 0 ∧ al.stack ≠ none
  | .createUserThread kstackSize ustackSize al =>
    al.thread ≠ none → m.sseAvxBufSize ≠ 0 → al.buffer ≠ none →
      (kstackSize ≠ 0 ∧ al.stack ≠ none) ∧ ustackSize ≠ 0 ∧ al.ustack ≠ none
  | .destroy _ => False

/-! ## One call of `kfree` -/

variable {m m' m₁ m₂ : ThreadMemory} {al : Allocations} {act : MemoryAction} {b : ThreadBlocks}
  {p t stackSize kstackSize ustackSize : Nat}

lemma kfree_frame (m : ThreadMemory) (p : Nat) :
    (m.kfree p).threads = m.threads ∧ (m.kfree p).areas = m.areas ∧
      (∀ q ∈ (m.kfree p).blocks, q ∈ m.blocks) ∧ (∀ q ∈ m.blocks, q ≠ p → q ∈ (m.kfree p).blocks) ∧
      m.foreign <:+ (m.kfree p).foreign := by
  rw [ThreadMemory.kfree]
  split_ifs
  · exact ⟨rfl, rfl, fun _ hq => hq, fun _ hq _ => hq, suffix_refl _⟩
  · exact ⟨rfl, rfl, fun _ hq => mem_of_mem_erase hq,
      fun _ hq hne => (mem_erase_of_ne hne).mpr hq, suffix_refl _⟩
  · exact ⟨rfl, rfl, fun _ hq => hq, fun _ hq _ => hq, suffix_cons _ _⟩

lemma kfree_own (hp : p = 0 ∨ p ∈ m.blocks) : (m.kfree p).foreign = m.foreign := by
  rw [ThreadMemory.kfree]
  split_ifs with hzero hmem
  · rfl
  · rfl
  · exact absurd (hp.resolve_left hzero) hmem

/-- An address of the region of `vmalloc` is not one of the heap. -/
lemma kfree_area (hblocks : ∀ q ∈ m.blocks, heapStart ≤ q) (hlow : vmallocStart ≤ p)
    (hhigh : p < heapStart) : (m.kfree p).foreign ≠ [] := by
  have hzero : p ≠ 0 := fun h => absurd (h ▸ hlow) (by decide)
  have hmem : p ∉ m.blocks := fun h => absurd (hblocks p h) (Nat.not_le.mpr hhigh)
  rw [ThreadMemory.kfree, if_neg hzero, if_neg hmem]
  exact cons_ne_nil _ _

lemma foreign_of_suffix (h : m.foreign <:+ m'.foreign) (hne : m.foreign ≠ []) :
    m'.foreign ≠ [] := by
  intro hnil
  rw [hnil] at h
  exact hne (suffix_nil.mp h)

/-! ## The common part -/

/-- Threads and areas as before or more, and blocks of the heap only. -/
structure Grows (m m' : ThreadMemory) : Prop where
  threads : m'.threads = m.threads
  areas : m.areas.length ≤ m'.areas.length
  blocks : (∀ p ∈ m.blocks, heapStart ≤ p) → ∀ p ∈ m'.blocks, heapStart ≤ p

lemma Grows.kfree (h : Grows m m') (p : Nat) : Grows m (m'.kfree p) := by
  obtain ⟨hthreads, hareas, hsub, -⟩ := kfree_frame m' p
  exact ⟨hthreads.trans h.threads, hareas ▸ h.areas, fun hb q hq => h.blocks hb q (hsub q hq)⟩

lemma Grows.kmalloc (h : Grows m m') (hp : heapStart ≤ p) : Grows m (m'.kmalloc p) := by
  refine ⟨h.threads, h.areas, fun hb q hq => ?_⟩
  rcases mem_cons.mp hq with rfl | hq
  · exact hp
  · exact h.blocks hb q hq

lemma Grows.vmalloc (h : Grows m m') {v : Varea} (hv : heapStart ≤ v.node) :
    Grows m (m'.vmalloc v) := by
  have hk := h.kmalloc hv
  exact ⟨hk.threads, Nat.le_trans hk.areas (le_succ _), hk.blocks⟩

/-- How `allocThread` ends: without a thread and with nothing foreign given to `kfree`,
without a thread and with the buffer given to `kfree`, or with a thread. -/
lemma allocThread_cases (m : ThreadMemory) (hal : al.Fresh m)
    (hblocks : ∀ q ∈ m.blocks, heapStart ≤ q) (stackSize : Nat) :
    Grows m (m.allocThread stackSize al).1 ∧
    (((m.allocThread stackSize al).2 = none ∧ (m.allocThread stackSize al).1.foreign = m.foreign ∧
        (al.thread = none ∨ m.sseAvxBufSize = 0 ∨ al.buffer = none)) ∨
      ((m.allocThread stackSize al).2 = none ∧ (m.allocThread stackSize al).1.foreign ≠ [] ∧
        al.thread ≠ none ∧ m.sseAvxBufSize ≠ 0 ∧ al.buffer ≠ none ∧
        ¬ (stackSize ≠ 0 ∧ al.stack ≠ none)) ∨
      ∃ t b, (m.allocThread stackSize al).2 = some (t, b) ∧ al.thread = some t ∧
        t ∈ (m.allocThread stackSize al).1.blocks ∧
        (m.allocThread stackSize al).1.foreign = m.foreign ∧
        m.areas.length < (m.allocThread stackSize al).1.areas.length ∧
        (vmallocStart ≤ b.kernelStackBottom ∧ b.kernelStackBottom < heapStart) ∧
        stackSize ≠ 0 ∧ al.stack ≠ none ∧
        (m.sseAvxBufSize = 0 ∧ b.sseAvxBuffer = 0 ∨
          m.sseAvxBufSize ≠ 0 ∧ al.buffer ≠ none ∧ vmallocStart ≤ b.sseAvxBuffer ∧
            b.sseAvxBuffer < heapStart)) := by
  have hself : Grows m m := ⟨rfl, Nat.le_refl _, fun h => h⟩
  unfold ThreadMemory.allocThread
  cases hthread : al.thread with
  | none => exact ⟨hself, .inl ⟨rfl, rfl, .inl rfl⟩⟩
  | some t =>
    have ht := (hal.heap t (.inl hthread)).1
    have hg1 : Grows m (m.kmalloc t) := hself.kmalloc ht
    have htm : t ∈ (m.kmalloc t).blocks := mem_cons_self
    dsimp only
    -- the buffer
    by_cases hsize : m.sseAvxBufSize = 0
    · rw [if_pos hsize]
      cases hstack : (if stackSize = 0 then none else al.stack) with
      | none =>
        refine ⟨(hg1.kfree 0).kfree t, .inl ⟨rfl, ?_, .inr (.inl hsize)⟩⟩
        exact kfree_own (.inr htm)
      | some v =>
        split_ifs at hstack with hzero
        refine ⟨hg1.vmalloc (hal.heap v.node (.inr (.inr (.inl ⟨v, hstack, rfl⟩)))).1,
          .inr (.inr ⟨t, _, rfl, rfl, mem_cons_of_mem _ htm, rfl, lt_succ_self _,
            hal.region v (.inr hstack), hzero, by rw [hstack]; simp, .inl ⟨hsize, rfl⟩⟩)⟩
    · rw [if_neg hsize]
      cases hbuffer : al.buffer with
      | none =>
        exact ⟨hg1.kfree t, .inl ⟨rfl, kfree_own (.inr htm), .inr (.inr rfl)⟩⟩
      | some w =>
        obtain ⟨hlow, hhigh⟩ := hal.region w (.inl hbuffer)
        have hg2 : Grows m ((m.kmalloc t).vmalloc w) :=
          hg1.vmalloc (hal.heap w.node (.inr (.inl ⟨w, hbuffer, rfl⟩))).1
        cases hstack : (if stackSize = 0 then none else al.stack) with
        | none =>
          refine ⟨(hg2.kfree w.base).kfree t, .inr (.inl ⟨rfl, ?_, some_ne_none t,
            hsize, some_ne_none w, ?_⟩)⟩
          · exact foreign_of_suffix (kfree_frame _ t).2.2.2.2
              (kfree_area (hg2.blocks hblocks) hlow hhigh)
          · rintro ⟨hzero, hne⟩
            rw [if_neg hzero] at hstack
            exact hne hstack
        | some v =>
          split_ifs at hstack with hzero
          refine ⟨hg2.vmalloc (hal.heap v.node (.inr (.inr (.inl ⟨v, hstack, rfl⟩)))).1,
            .inr (.inr ⟨t, _, rfl, rfl, ?_, rfl, ?_, hal.region v (.inr hstack), hzero,
              by rw [hstack]; simp, .inr ⟨hsize, some_ne_none w, hlow, hhigh⟩⟩)⟩
          · exact mem_cons_of_mem _ (mem_cons_of_mem _ htm)
          · exact lt_succ_of_lt (lt_succ_self _)

/-! ## The invariant -/

structure MemoryKept (m : ThreadMemory) : Prop where
  blocks : ∀ p ∈ m.blocks, heapStart ≤ p
  threads : ∀ t b, m.threads t = some b →
    vmallocStart ≤ b.kernelStackBottom ∧ b.kernelStackBottom < heapStart
  foreign : m.foreign = []

section

variable (h : MemoryKept m)
include h

lemma MemoryKept.grows (hg : Grows m m') (hforeign : m'.foreign = m.foreign) : MemoryKept m' :=
  ⟨hg.blocks h.blocks, by rw [hg.threads]; exact h.threads, hforeign.trans h.foreign⟩

lemma MemoryKept.setThread
    (hb : vmallocStart ≤ b.kernelStackBottom ∧ b.kernelStackBottom < heapStart) (t : Nat) :
    MemoryKept (m.setThread t (some b)) := by
  refine ⟨h.blocks, fun u c hu => ?_, h.foreign⟩
  rcases update_eq_cases hu with ⟨-, hu⟩ | ⟨hut, hu⟩
  · cases hu
    exact hb
  · exact h.threads u c hu

lemma MemoryKept.createThread (hal : al.Fresh m) :
    (NoForeign m (.createThread stackSize al) → MemoryKept (m.createThread stackSize al)) ∧
      (¬ NoForeign m (.createThread stackSize al) →
        (m.createThread stackSize al).foreign ≠ []) := by
  obtain ⟨hg, hcases⟩ := allocThread_cases m hal h.blocks stackSize
  rw [ThreadMemory.createThread]
  generalize m.allocThread stackSize al = r at hg hcases
  obtain ⟨m', result⟩ := r
  rcases hcases with ⟨rfl, hforeign, hsafe⟩ | ⟨rfl, hforeign, hthread, hsize, hbuffer, hstack⟩ |
    ⟨t, b, rfl, -, -, hforeign, -, hb, hsize, hstack, -⟩
  · refine ⟨fun _ => h.grows hg hforeign, fun hbad => absurd ?_ hbad⟩
    intro hthread hsize hbuffer
    exact (hsafe.resolve_left hthread).elim (fun h => absurd h hsize) fun h => absurd h hbuffer
  · exact ⟨fun hgood => absurd (hgood hthread hsize hbuffer) hstack, fun _ => hforeign⟩
  · exact ⟨fun _ => (h.grows hg hforeign).setThread hb t,
      fun hbad => absurd (fun _ _ _ => ⟨hsize, hstack⟩) hbad⟩

/-- Creating a user thread, where the user stack may fail as well. -/
lemma MemoryKept.createUserThread (hal : al.Fresh m) :
    (NoForeign m (.createUserThread kstackSize ustackSize al) →
        MemoryKept (m.createUserThread kstackSize ustackSize al)) ∧
      (¬ NoForeign m (.createUserThread kstackSize ustackSize al) →
        (m.createUserThread kstackSize ustackSize al).foreign ≠ []) := by
  obtain ⟨hg, hcases⟩ := allocThread_cases m hal h.blocks kstackSize
  unfold ThreadMemory.createUserThread
  generalize m.allocThread kstackSize al = r at hg hcases
  obtain ⟨m', result⟩ := r
  rcases hcases with ⟨rfl, hforeign, hsafe⟩ | ⟨rfl, hforeign, hthread, hsize, hbuffer, hstack⟩ |
    ⟨t, b, rfl, hthread, ht, hforeign, -, hb, hsize, hstack, hbuf⟩
  · refine ⟨fun _ => h.grows hg hforeign, fun hbad => absurd ?_ hbad⟩
    intro hthread hsize hbuffer
    exact (hsafe.resolve_left hthread).elim (fun h => absurd h hsize) fun h => absurd h hbuffer
  · exact ⟨fun hgood => absurd (hgood hthread hsize hbuffer).1 hstack, fun _ => hforeign⟩
  · have hkept := h.grows hg hforeign
    cases hustack : (if ustackSize = 0 then none else al.ustack) with
    | some node =>
      split_ifs at hustack with hzero
      refine ⟨fun _ => ?_, fun hbad => absurd (fun _ _ _ => ⟨⟨hsize, hstack⟩, hzero, ?_⟩) hbad⟩
      · have hnode := (hal.heap node (.inr (.inr (.inr hustack)))).1
        exact (h.grows (hg.kmalloc hnode) hforeign).setThread hb t
      · rw [hustack]
        exact some_ne_none node
    | none =>
      have hnone : ¬ (ustackSize ≠ 0 ∧ al.ustack ≠ none) := by
        rintro ⟨hzero, hne⟩
        rw [if_neg hzero] at hustack
        exact hne hustack
      rcases hbuf with ⟨hbufSize, hnull⟩ | ⟨hbufSize, hbuffer, hlow, hhigh⟩
      · refine ⟨fun _ => h.grows ((hg.kfree _).kfree t) ?_, fun hbad =>
          absurd (fun _ hne _ => absurd hbufSize hne) hbad⟩
        have hown : (m'.kfree b.sseAvxBuffer) = m' := by
          rw [hnull]
          rfl
        dsimp only
        rw [hown]
        exact (kfree_own (.inr ht)).trans hforeign
      · refine ⟨fun hgood => absurd (hgood ?_ hbufSize hbuffer).2 hnone, fun _ => ?_⟩
        · rw [hthread]
          exact some_ne_none t
        · exact foreign_of_suffix (kfree_frame _ t).2.2.2.2 (kfree_area hkept.blocks hlow hhigh)

lemma MemoryKept.destroy (ht : m.threads t ≠ none) : (m.destroyThread t).foreign ≠ [] := by
  obtain ⟨b, hb⟩ := ne_none_iff_exists'.mp ht
  obtain ⟨hlow, hhigh⟩ := h.threads t b hb
  rw [ThreadMemory.destroyThread, hb]
  exact foreign_of_suffix (kfree_frame _ t).2.2.2.2 (kfree_area h.blocks hlow hhigh)

lemma MemoryKept.step (hstep : MemoryStep m act m') :
    (NoForeign m act → MemoryKept m') ∧ (¬ NoForeign m act → m'.foreign ≠ []) := by
  cases hstep with
  | createThread hal => exact h.createThread hal
  | createUserThread hal => exact h.createUserThread hal
  | destroy ht => exact ⟨False.elim, fun _ => h.destroy ht⟩

end

/-! ## Create and destroy -/

/-- A block or an area more or less is a difference, the order of the lists is not. -/
def Restored (m m' : ThreadMemory) : Prop :=
  m'.blocks.Perm m.blocks ∧ m'.areas.Perm m.areas

/-- A step that makes a thread also makes the area of its kernel stack. -/
lemma MemoryStep.areas_lt (hblocks : ∀ q ∈ m.blocks, heapStart ≤ q) (hstep : MemoryStep m act m')
    (hnone : m.threads t = none) (hsome : m'.threads t ≠ none) :
    m.areas.length < m'.areas.length := by
  cases hstep with
  | @createThread stackSize al hal =>
    obtain ⟨hg, hcases⟩ := allocThread_cases m hal hblocks stackSize
    rw [ThreadMemory.createThread] at hsome ⊢
    generalize m.allocThread stackSize al = r at hg hcases hsome
    obtain ⟨m', result⟩ := r
    have hsame : m'.threads t = none := (congrFun hg.threads t).trans hnone
    rcases hcases with ⟨rfl, -⟩ | ⟨rfl, -⟩ | ⟨u, b, rfl, -, -, -, hlt, -⟩
    · exact absurd hsame hsome
    · exact absurd hsame hsome
    · exact hlt
  | @createUserThread kstackSize ustackSize al hal =>
    obtain ⟨hg, hcases⟩ := allocThread_cases m hal hblocks kstackSize
    unfold ThreadMemory.createUserThread at hsome ⊢
    generalize m.allocThread kstackSize al = r at hg hcases hsome
    obtain ⟨m', result⟩ := r
    have hsame : m'.threads t = none := (congrFun hg.threads t).trans hnone
    rcases hcases with ⟨rfl, -⟩ | ⟨rfl, -⟩ | ⟨u, b, rfl, -, -, -, hlt, -⟩
    · exact absurd hsame hsome
    · exact absurd hsame hsome
    · cases hustack : (if ustackSize = 0 then none else al.ustack) with
      | none =>
        rw [hustack] at hsome
        refine absurd ?_ hsome
        rw [(kfree_frame _ u).1, (kfree_frame m' _).1]
        exact hsame
      | some node => exact hlt
  | @destroy u hu =>
    refine absurd ?_ hsome
    obtain ⟨b, hb⟩ := ne_none_iff_exists'.mp hu
    rw [ThreadMemory.destroyThread, hb]
    have hut : t ≠ u := fun h => hu (h ▸ hnone)
    simp only [ThreadMemory.setThread, update_of_ne hut]
    rw [(kfree_frame _ u).1, (kfree_frame m _).1]
    exact hnone

lemma destroyThread_areas (m : ThreadMemory) (t : Nat) : (m.destroyThread t).areas = m.areas := by
  cases hb : m.threads t with
  | none => rw [ThreadMemory.destroyThread, hb]
  | some b =>
    rw [ThreadMemory.destroyThread, hb]
    exact (kfree_frame _ t).2.1.trans (kfree_frame m _).2.1

/-! ## The result -/

/-- Over a run in which no thread is destroyed and nothing fails after a buffer was
allocated, `kfree` gets its own blocks only, and a step keeps this exactly if it is
again such a step. In such a state no creation of a thread is undone by its
destruction: the area of the kernel stack remains. -/
theorem thread_memory_iff (m : ThreadMemory) (run : memoryMachine.Reached NoForeign m) :
    memoryMachine.SafeExactlyWhen OwnBlocksFreed NoForeign m ∧
      ∀ t act m₁ m₂, m.threads t = none → MemoryStep m act m₁ → m₁.threads t ≠ none →
        MemoryStep m₁ (.destroy t) m₂ → ¬ Restored m m₂ := by
  have hstart : ∀ m, memoryMachine.start m → MemoryKept m := fun m hm =>
    ⟨hm.2.1, fun t b ht => absurd ((hm.1 t).symm.trans ht) (some_ne_none b).symm, hm.2.2⟩
  have hkept : MemoryKept m :=
    run.invariant hstart fun _ _ _ h hgood hstep => (h.step hstep).1 hgood
  refine ⟨run.safeExactlyWhen hstart (fun _ _ _ h hgood hstep => (h.step hstep).1 hgood)
    (fun _ h => h.foreign) (fun _ _ _ h hstep hbad => (h.step hstep).2 hbad), ?_⟩
  intro t act m₁ m₂ hnone hstep hsome hdestroy hrestored
  have hlt := hstep.areas_lt hkept.blocks hnone hsome
  have hsame : m₂.areas = m₁.areas := by
    cases hdestroy
    exact destroyThread_areas m₁ t
  have hlength := hrestored.2.length_eq
  rw [hsame] at hlength
  omega

/-- Nothing is allocated, and the vector registers need 832 bytes. -/
def emptyMemory : ThreadMemory where
  sseAvxBufSize := 832
  blocks := []
  areas := []
  threads := fun _ => none
  foreign := []

lemma emptyMemory_start : memoryMachine.start emptyMemory :=
  ⟨fun _ => rfl, fun _ hp => absurd hp not_mem_nil, rfl⟩

/-- The thread is the first block of the heap, and the buffer and the stack are the first
areas. -/
def firstAllocations : Allocations where
  thread := some heapStart
  buffer := some ⟨heapStart + 0x400, vmallocStart⟩
  stack := some ⟨heapStart + 0x440, vmallocStart + 0x1000⟩
  ustack := none

lemma firstAllocations_fresh : firstAllocations.Fresh emptyMemory := by
  constructor
  · rintro p (h | ⟨v, h, rfl⟩ | ⟨v, h, rfl⟩ | h) <;> cases h <;>
      exact ⟨by decide, not_mem_nil⟩
  · rintro v (h | h) <;> cases h <;> exact ⟨by decide, by decide⟩

/-- After the first thread. -/
def firstThread : ThreadMemory := emptyMemory.createThread 0x4000 firstAllocations

theorem thread_memory_first : memoryMachine.SafeExactlyWhen OwnBlocksFreed NoForeign firstThread ∧
      ∀ t act m₁ m₂, firstThread.threads t = none → MemoryStep firstThread act m₁ →
        m₁.threads t ≠ none → MemoryStep m₁ (.destroy t) m₂ → ¬ Restored firstThread m₂ :=
  thread_memory_iff firstThread ((Machine.Reached.start emptyMemory_start).step
      (show NoForeign emptyMemory (.createThread 0x4000 firstAllocations) from
        fun _ _ _ => ⟨by decide, by decide⟩)
      (MemoryStep.createThread firstAllocations_fresh))

/-- One thread is created and destroyed. Its kernel stack is an area of `vmalloc` and is
given to `kfree`; the two areas and their nodes remain. -/
theorem destroy_frees_area_as_block :
    MemoryStep emptyMemory (.createThread 0x4000 firstAllocations) firstThread ∧
      MemoryStep firstThread (.destroy heapStart) (firstThread.destroyThread heapStart) ∧
      (firstThread.destroyThread heapStart).foreign = [vmallocStart + 0x1000] ∧
      (firstThread.destroyThread heapStart).areas = [vmallocStart + 0x1000, vmallocStart] ∧
      (firstThread.destroyThread heapStart).blocks = [heapStart + 0x440, heapStart + 0x400] ∧
      ¬ OwnBlocksFreed (firstThread.destroyThread heapStart) ∧
      ¬ Restored emptyMemory (firstThread.destroyThread heapStart) := by
  have hforeign : (firstThread.destroyThread heapStart).foreign = [vmallocStart + 0x1000] := by
    decide +kernel
  have hareas : (firstThread.destroyThread heapStart).areas =
      [vmallocStart + 0x1000, vmallocStart] := by decide +kernel
  refine ⟨.createThread firstAllocations_fresh, .destroy (by decide +kernel), hforeign, hareas,
    by decide +kernel, ?_, ?_⟩
  · exact cons_ne_nil _ _
  · rintro ⟨-, h⟩
    exact absurd h.length_eq (by decide)

end DestinX.Sched
