import DestinX.Vm.PageFault

/-!
# The regions of a process

The heap, the mapped areas and the user stacks of one process. `brk` takes any address above the
beginning of the heap, and `mmap` looks at its own list only. So a heap can grow over the areas
and the stacks and into the kernel half, and an area can be placed inside a large heap.
-/

namespace DestinX.Vm

open Base Fs Paging Function Option List Nat

/-- The first address of the kernel half. -/
def userEnd : Nat := 2 ^ 47

inductive Region where
  | heap
  | area (i : Nat)
  | stack (t : Nat)
  deriving DecidableEq, Repr

/-- The address lies in the region of process `p`. -/
def Region.Holds (k : Kernel) (p : Nat) : Region → Nat → Prop
  | .heap, x => (k.process p).heapStart ≤ x ∧ x < (k.process p).currentHeapEnd
  | .area i, x =>
    Reaches (k.process p).mmaps.next (k.process p).mmaps.head i ∧
      ((k.process p).mmaps.area i).low ≤ x ∧ x < ((k.process p).mmaps.area i).base
  | .stack t, x =>
    ∃ th, k.thread t = some th ∧ th.process = p ∧ th.stackBottom ≤ x ∧ x < th.stackTop

/-- The kernel, with the pages that the fault handler has mapped for user mode. -/
structure RegionState where
  kernel : Kernel
  userPages : List Nat

/-- No address lies in two regions, none in the kernel half, and the fault handler has
mapped no page there. -/
structure RegionsApart (p : Nat) (st : RegionState) : Prop where
  apart : ∀ (r r' : Region) x, r.Holds st.kernel p x → r'.Holds st.kernel p x → r = r'
  user : ∀ (r : Region) x, r.Holds st.kernel p x → x < userEnd
  pages : ∀ v ∈ st.userPages, v + 4096 ≤ userEnd

inductive RegionAction where
  | brk (addr : Nat)
  | mmap (block : Option (Nat × VmArea)) (call : MmapCall)
  | munmap (ptr : Nat)
  | fault (t fault : Nat)

/-- The pages that are mapped for user mode when the fault ends. -/
def FaultEnd.userPages : FaultEnd → List Nat
  | .mapped page flags => if flags &&& pteUser = 0 then [] else [page]
  | _ => []

/-- One step of a thread of process `p`. The sizes are such that no area wraps
around. -/
inductive RegionStep (p : Nat) : RegionState → RegionAction → RegionState → Prop
  | brk {st : RegionState} {addr : Nat} (haddr : addr < 2 ^ 64) :
      RegionStep p st (.brk addr) ⟨(st.kernel.brk p addr).1, st.userPages⟩
  | mmap {st : RegionState} {block : Option (Nat × VmArea)} {call : MmapCall} {fuel ret : Nat}
      {k : Kernel} (hsize : call.size < 2 ^ 64) (hfresh : Fresh (st.kernel.process p).mmaps block)
      (hfits : SizeFits (st.kernel.process p).mmaps block call)
      (hcall : st.kernel.mmap fuel p block call = some (k, ret)) :
      RegionStep p st (.mmap block call) ⟨k, st.userPages⟩
  | munmap {st : RegionState} {ptr fuel : Nat} {k : Kernel}
      (hcall : st.kernel.munmap fuel p ptr = some k) :
      RegionStep p st (.munmap ptr) ⟨k, st.userPages⟩
  | fault {st : RegionState} {t fault fuel : Nat} {th : UserThread} {k : Kernel} {e : FaultEnd}
      (hth : st.kernel.thread t = some th) (hp : th.process = p) (hfault : fault < 2 ^ 64)
      (hcall : st.kernel.pageFaultHandler fuel t fault = some (k, e)) :
      RegionStep p st (.fault t fault) ⟨k, e.userPages ++ st.userPages⟩

/-- A stack of whole pages in the user half. One page at the top is mapped. -/
structure UserThread.NewStack (th : UserThread) : Prop where
  bottom : 4096 ∣ th.stackBottom
  top : 4096 ∣ th.stackTop
  lt : th.stackBottom < th.stackTop
  le : th.stackTop ≤ userEnd
  guardMax : th.pageGuardMax = th.stackTop - 4096
  guardMin : th.pageGuardMin = sub64 th.pageGuardMax 4096

/-- A new process: an empty heap, no areas, and stacks that do not overlap. -/
def regionMachine (p : Nat) : Machine RegionState RegionAction where
  start st :=
    (st.kernel.process p).currentHeapEnd = (st.kernel.process p).heapStart ∧
      (st.kernel.process p).mmaps.head = none ∧ st.userPages = [] ∧
      (∀ t th, st.kernel.thread t = some th → th.process = p → th.NewStack) ∧
      ∀ t t' x, (Region.stack t).Holds st.kernel p x →
        (Region.stack t').Holds st.kernel p x → t = t'
  step := RegionStep p

/-- The new heap, or the new area, meets no other region and stays in the user half. -/
def StaysApart (p : Nat) (st : RegionState) : RegionAction → Prop
  | .brk addr =>
    addr < (st.kernel.process p).heapStart ∨ ∀ x, (st.kernel.process p).heapStart ≤ x → x < addr →
        x < userEnd ∧ ∀ r : Region, r.Holds st.kernel p x → r = .heap
  | .mmap block call =>
    call.Refused ∨ block = none ∨
      ∀ l, Chain (st.kernel.process p).mmaps.next (st.kernel.process p).mmaps.head l →
        ∀ x, (st.kernel.process p).mmaps.place mmapStart (roundUp call.size) l -
            roundUp call.size ≤ x →
          x < (st.kernel.process p).mmaps.place mmapStart (roundUp call.size) l →
          ∀ r : Region, ¬ r.Holds st.kernel p x
  | _ => True

variable {k k' : Kernel} {st st' : RegionState} {p t x addr va fuel : Nat} {r r' : Region}
  {th : UserThread} {e : FaultEnd} {l : List Nat}

/-! ## Steps that leave the regions alone -/

/-- The bounds of a stack, with the process it belongs to. -/
def UserThread.bounds (th : UserThread) : Nat × Nat × Nat :=
  (th.process, th.stackBottom, th.stackTop)

lemma stack_holds_iff : (Region.stack t).Holds k p x ↔
      ∃ b, (k.thread t).map UserThread.bounds = some b ∧ b.1 = p ∧ b.2.1 ≤ x ∧ x < b.2.2 := by
  constructor
  · rintro ⟨th, hth, hp, hx⟩
    exact ⟨th.bounds, by rw [hth, map_some], hp, hx⟩
  · rintro ⟨b, hb, hp, hx⟩
    obtain ⟨th, hth, rfl⟩ := map_eq_some_iff.mp hb
    exact ⟨th, hth, hp, hx⟩

/-- The two kernels have the same regions for process `p`. -/
structure SameRegions (p : Nat) (k k' : Kernel) : Prop where
  heapStart : (k'.process p).heapStart = (k.process p).heapStart
  heapEnd : (k'.process p).currentHeapEnd = (k.process p).currentHeapEnd
  mmaps : (k'.process p).mmaps = (k.process p).mmaps
  threads : ∀ t, (k'.thread t).map UserThread.bounds = (k.thread t).map UserThread.bounds

lemma SameRegions.holds_iff (h : SameRegions p k k') : r.Holds k' p x ↔ r.Holds k p x := by
  cases r with
  | heap => rw [Region.Holds, Region.Holds, h.heapStart, h.heapEnd]
  | area i => rw [Region.Holds, Region.Holds, h.mmaps]
  | stack t => rw [stack_holds_iff, stack_holds_iff, h.threads]

lemma SameRegions.of_eq (hprocess : k'.process = k.process) (hthread : k'.thread = k.thread) :
    SameRegions p k k' :=
  ⟨by rw [hprocess], by rw [hprocess], by rw [hprocess], fun t => by rw [hthread]⟩

lemma sameRegions_expandStack (hth : k.thread t = some th) :
    SameRegions p k (k.expandStack t th) := by
  refine ⟨rfl, rfl, rfl, fun t' => ?_⟩
  by_cases ht : t' = t
  · subst ht
    rw [hth]
    simp only [Kernel.expandStack, Kernel.setThread, update_self, map_some,
      UserThread.bounds]
  · simp only [Kernel.expandStack, Kernel.setThread, update_of_ne ht]
    rfl

lemma sameRegions_expandHeap (k : Kernel) (p va : Nat) : SameRegions p k (k.expandHeap p va) := by
  constructor <;>
    simp [Kernel.expandHeap, Kernel.setProcess, Kernel.mapPage, Kernel.allocPage]

/-! ## What holds along a run -/

/-- A stack with its guard page right below what is mapped. -/
structure UserThread.Guarded (th : UserThread) : Prop where
  bottom : 4096 ∣ th.stackBottom
  max : 4096 ∣ th.pageGuardMax
  le : th.stackBottom ≤ th.pageGuardMax
  lt : th.pageGuardMax < th.stackTop
  top : th.stackTop ≤ userEnd
  guardMin : th.pageGuardMin = sub64 th.pageGuardMax 4096

lemma UserThread.NewStack.guarded (h : th.NewStack) : th.Guarded := by
  obtain ⟨hb, ht, hlt, hle, hmax, hmin⟩ := h
  refine ⟨hb, ?_, ?_, ?_, hle, hmin⟩
  · omega
  · omega
  · omega

structure RegionInv (p : Nat) (st : RegionState) : Prop where
  sorted : ∃ l, Sorted mmapStart (st.kernel.process p).mmaps l
  guarded : ∀ t th, st.kernel.thread t = some th → th.process = p → th.Guarded
  apart : RegionsApart p st

lemma RegionsApart.congr (h : RegionsApart p st) (hsame : SameRegions p st.kernel k)
    {pages : List Nat} (hpages : ∀ v ∈ pages, v + 4096 ≤ userEnd) : RegionsApart p ⟨k, pages⟩ :=
  ⟨fun r r' x hr hr' => h.apart r r' x (hsame.holds_iff.mp hr) (hsame.holds_iff.mp hr'),
    fun r x hr => h.user r x (hsame.holds_iff.mp hr), hpages⟩

/-- The guard page of a stack that can still grow lies in the stack. -/
lemma UserThread.Guarded.page (h : th.Guarded) (hne : th.pageGuardMax ≠ th.stackBottom) :
    th.pageGuardMin = th.pageGuardMax - 4096 ∧ th.stackBottom + 4096 ≤ th.pageGuardMax := by
  obtain ⟨a, ha⟩ := h.bottom
  obtain ⟨b, hb⟩ := h.max
  have hle := h.le
  have hlt := h.lt
  have htop := h.top
  have hmin := h.guardMin
  simp only [userEnd] at htop
  simp only [sub64] at hmin
  omega

lemma pageStart_add_le (hx : x < userEnd) : pageStart x + 4096 ≤ userEnd := by
  have heq : pageStart x = x / 4096 * 4096 :=
    and_high_mask (n := 64) (k := 12) (hx.trans (by norm_num [userEnd])) (by norm_num)
  simp only [userEnd] at hx ⊢
  omega

lemma FaultEnd.userPages_mapped {page flags v : Nat}
    (hv : v ∈ (FaultEnd.mapped page flags).userPages) : v = page := by
  rw [FaultEnd.userPages] at hv
  split_ifs at hv
  · cases hv
  · exact mem_singleton.mp hv

lemma guarded_expandStack (h : ∀ t th, k.thread t = some th → th.process = p → th.Guarded)
    (hth : k.thread t = some th) (hp : th.process = p) (hne : th.pageGuardMax ≠ th.stackBottom) :
    ∀ t' th', (k.expandStack t th).thread t' = some th' → th'.process = p → th'.Guarded := by
  intro t' th' hth' hp'
  by_cases ht : t' = t
  · subst ht
    have hg := h t' th hth hp
    obtain ⟨hmin, hroom⟩ := hg.page hne
    have hmax := hg.max
    have hlt := hg.lt
    have htop := hg.top
    have hsub : sub64 th.pageGuardMax 4096 = th.pageGuardMax - 4096 := by
      simp only [sub64, userEnd] at htop ⊢
      omega
    simp only [Kernel.expandStack, Kernel.setThread, update_self, some.injEq] at hth'
    subst hth'
    refine ⟨hg.bottom, ?_, ?_, ?_, hg.top, ?_⟩
    · dsimp only
      omega
    · dsimp only
      omega
    · dsimp only
      omega
    · rw [hsub, hmin]
  · refine h t' th' ?_ hp'
    rw [← hth']
    simp only [Kernel.expandStack, Kernel.setThread, update_of_ne ht]
    rfl

lemma RegionInv.fault (h : RegionInv p st) (hth : st.kernel.thread t = some th)
    (hp : th.process = p) (hcall : st.kernel.pageFaultHandler fuel t va = some (k, e)) :
    RegionInv p ⟨k, e.userPages ++ st.userPages⟩ := by
  have hold : ∀ v ∈ e.userPages ++ st.userPages, (v ∈ e.userPages → v + 4096 ≤ userEnd) →
      v + 4096 ≤ userEnd := by
    intro v hv hnew
    rcases mem_append.mp hv with hv | hv
    · exact hnew hv
    · exact h.apart.pages v hv
  subst hp
  rcases pageFaultHandler_cases hth hcall with ⟨-, -, hne, rfl, rfl⟩ | ⟨rfl, he⟩ |
    ⟨hlo, hhi, rfl, rfl⟩ | ⟨i, hi, harea⟩
  · have hg := h.guarded t th hth rfl
    obtain ⟨hmin, hroom⟩ := hg.page hne
    have hsame := sameRegions_expandStack (p := th.process) hth
    refine ⟨by rw [hsame.mmaps]; exact h.sorted, guarded_expandStack h.guarded hth rfl hne,
      h.apart.congr hsame fun v hv => hold v hv fun hnew => ?_⟩
    rw [FaultEnd.userPages_mapped hnew]
    have hlt := hg.lt
    have htop := hg.top
    omega
  · have hnone : e.userPages = [] := by rcases he with rfl | rfl <;> rfl
    rw [hnone]
    exact h
  · have hsame := sameRegions_expandHeap st.kernel th.process va
    refine ⟨by rw [hsame.mmaps]; exact h.sorted, h.guarded,
      h.apart.congr hsame fun v hv => hold v hv fun hnew => ?_⟩
    rw [FaultEnd.userPages_mapped hnew]
    exact pageStart_add_le (h.apart.user .heap va ⟨hlo, hhi⟩)
  · obtain ⟨hprocess, hthread, -, -, he⟩ := areaFault_frame harea
    have hsame : SameRegions th.process st.kernel k := .of_eq hprocess hthread
    refine ⟨by rw [hsame.mmaps]; exact h.sorted, by rw [hthread]; exact h.guarded,
      h.apart.congr hsame fun v hv => hold v hv fun hnew => ?_⟩
    rcases he with rfl | rfl
    · rw [FaultEnd.userPages_mapped hnew]
      obtain ⟨htest, hreach⟩ := searchArea_found hi
      obtain ⟨l, hs⟩ := h.sorted
      have hbase := (hs.placed i (hs.links.chain.reaches_iff.mp hreach)).base_le
      have hva : va < ((st.kernel.process th.process).mmaps.area i).base := by
        simpa using (of_decide_eq_true htest).2
      apply pageStart_add_le
      simp only [mmapStart, userEnd] at hbase ⊢
      omega
    · cases hnew

/-! ## `brk` -/

lemma brk_holds (hle : (k.process p).heapStart ≤ addr) : r.Holds (k.brk p addr).1 p x ↔
      if r = .heap then (k.process p).heapStart ≤ x ∧ x < addr else r.Holds k p x := by
  have hk : (k.brk p addr).1 = k.setProcess p fun pr => { pr with currentHeapEnd := addr } := by
    rw [Kernel.brk, if_neg (not_lt.mpr hle)]
  rw [hk]
  cases r <;> simp [Region.Holds, Kernel.setProcess]

lemma brk_mmaps (k : Kernel) (p addr : Nat) :
    ((k.brk p addr).1.process p).mmaps = (k.process p).mmaps ∧
      (k.brk p addr).1.thread = k.thread := by
  rw [Kernel.brk]
  split_ifs
  · exact ⟨rfl, rfl⟩
  · simp [Kernel.setProcess]

lemma RegionInv.brk (h : RegionInv p st) (hgood : StaysApart p st (.brk addr)) :
    RegionInv p ⟨(st.kernel.brk p addr).1, st.userPages⟩ := by
  obtain ⟨hmmaps, hthread⟩ := brk_mmaps st.kernel p addr
  refine ⟨by rw [hmmaps]; exact h.sorted, by rw [hthread]; exact h.guarded, ?_⟩
  by_cases hlt : addr < (st.kernel.process p).heapStart
  · have hk : (st.kernel.brk p addr).1 = st.kernel := by rw [Kernel.brk, if_pos hlt]
    rw [hk]
    exact h.apart
  have hnew := hgood.resolve_left hlt
  refine ⟨fun r r' x hr hr' => ?_, fun r x hr => ?_, h.apart.pages⟩
  · rw [brk_holds (not_lt.mp hlt)] at hr hr'
    split_ifs at hr hr' with hh hh' hh'
    · rw [hh, hh']
    · exact absurd ((hnew x hr.1 hr.2).2 r' hr') hh'
    · exact absurd ((hnew x hr'.1 hr'.2).2 r hr) hh
    · exact h.apart.apart r r' x hr hr'
  · rw [brk_holds (not_lt.mp hlt)] at hr
    split_ifs at hr with hh
    · exact (hnew x hr.1 hr.2).1
    · exact h.apart.user r x hr

/-- A heap that stays apart has been given an end that keeps it apart. -/
lemma staysApart_brk (h : RegionsApart p ⟨(st.kernel.brk p addr).1, st.userPages⟩) :
    StaysApart p st (.brk addr) := by
  by_cases hlt : addr < (st.kernel.process p).heapStart
  · exact .inl hlt
  refine .inr fun x hlo hhi => ?_
  have hheap : Region.heap.Holds (st.kernel.brk p addr).1 p x := by
    rw [brk_holds (not_lt.mp hlt)]
    exact ⟨hlo, hhi⟩
  refine ⟨h.user _ x hheap, fun r hr => ?_⟩
  by_contra hne
  apply hne
  refine h.apart r .heap x ?_ hheap
  rw [brk_holds (not_lt.mp hlt), if_neg hne]
  exact hr

/-! ## `munmap` -/

lemma RegionInv.munmap (h : RegionInv p st) {ptr : Nat}
    (hcall : st.kernel.munmap fuel p ptr = some k) : RegionInv p ⟨k, st.userPages⟩ := by
  obtain ⟨hlist, hthread, hstart, hend⟩ := munmap_mmaps hcall
  obtain ⟨l, hs⟩ := h.sorted
  obtain ⟨hs', hsame⟩ := munmapList_spec hs hlist
  have hsub : ∀ (r : Region) x, r.Holds k p x → r.Holds st.kernel p x := by
    intro r x hr
    cases r with
    | heap =>
      rw [Region.Holds, hstart, hend] at hr
      exact hr
    | stack t =>
      rw [Region.Holds, hthread] at hr
      exact hr
    | area i =>
      obtain ⟨hreach, hlo, hhi⟩ := hr
      have hmem := mem_of_mem_eraseP (hs'.links.chain.reaches_iff.mp hreach)
      rw [VmArea.low, VmArea.base_of_unlinked (hsame i), VmArea.size_of_unlinked (hsame i)] at hlo
      rw [VmArea.base_of_unlinked (hsame i)] at hhi
      exact ⟨hs.links.chain.reaches_iff.mpr hmem, hlo, hhi⟩
  refine ⟨⟨_, hs'⟩, by rw [hthread]; exact h.guarded, ?_⟩
  exact ⟨fun r r' x hr hr' => h.apart.apart r r' x (hsub r x hr) (hsub r' x hr'),
    fun r x hr => h.apart.user r x (hsub r x hr), h.apart.pages⟩

/-! ## `mmap` -/

section NewArea

variable {s' : AreaList} {i n b : Nat} {l1 l2 : List Nat}

lemma newArea_holds (hs : Sorted mmapStart (k.process p).mmaps (l1 ++ l2))
    (hs' : Sorted mmapStart s' (l1 ++ i :: l2)) (hi : i ∉ l1 ++ l2)
    (hother : ∀ q, q ≠ i → (s'.area q).unlinked = ((k.process p).mmaps.area q).unlinked)
    (hbase : (s'.area i).base = b) (hsize : (s'.area i).size = n) :
    r.Holds (k.setProcess p fun pr => { pr with mmaps := s' }) p x ↔
      if r = .area i then b - n ≤ x ∧ x < b else r.Holds k p x := by
  cases r with
  | heap => simp [Region.Holds, Kernel.setProcess]
  | stack t => simp [Region.Holds, Kernel.setProcess]
  | area j =>
    simp only [Region.Holds, Kernel.setProcess, update_self]
    rw [hs'.links.chain.reaches_iff, hs.links.chain.reaches_iff]
    by_cases hj : j = i
    · subst hj
      simp [VmArea.low, hbase, hsize]
    · have hne : Region.area j ≠ .area i := by simpa using hj
      rw [VmArea.low, VmArea.low, VmArea.base_of_unlinked (hother j hj),
        VmArea.size_of_unlinked (hother j hj)]
      simp [hj]

end NewArea

lemma mmap_effect {block : Option (Nat × VmArea)} {call : MmapCall} {ret : Nat}
    (hs : Sorted mmapStart (k.process p).mmaps l) (hfresh : Fresh (k.process p).mmaps block)
    (hfits : SizeFits (k.process p).mmaps block call)
    (hcall : k.mmap fuel p block call = some (k', ret)) :
    ((call.Refused ∨ block = none) ∧ k'.process p = k.process p ∧ k'.thread = k.thread) ∨
      (¬ call.Refused ∧ block ≠ none ∧ k'.thread = k.thread ∧
        (∃ l', Sorted mmapStart (k'.process p).mmaps l') ∧
        (k.process p).mmaps.place mmapStart (roundUp call.size) l ≤ mmapStart ∧
        ∃ i, i ∉ l ∧ ∀ (r : Region) x, r.Holds k' p x ↔ if r = .area i then
            (k.process p).mmaps.place mmapStart (roundUp call.size) l - roundUp call.size ≤ x ∧
              x < (k.process p).mmaps.place mmapStart (roundUp call.size) l
          else r.Holds k p x) := by
  obtain ⟨⟨s', ret'⟩, hmmap, hk⟩ := map_eq_some_iff.mp hcall
  cases hk
  by_cases href : call.Refused
  · rw [mmap_refused href] at hmmap
    obtain ⟨rfl, -⟩ := Prod.mk.inj (some.inj hmmap)
    exact .inl ⟨.inl href, by simp [Kernel.setProcess], rfl⟩
  cases block with
  | none =>
    rw [mmap_no_block href] at hmmap
    obtain ⟨rfl, -⟩ := Prod.mk.inj (some.inj hmmap)
    exact .inl ⟨.inr rfl, by simp [Kernel.setProcess], rfl⟩
  | some block =>
    obtain ⟨i, b⟩ := block
    have hi : i ∉ l := fun hm => hfresh i b rfl (hs.links.chain.reaches_iff.mpr hm)
    obtain ⟨base, l1, l2, rfl, hins, -, -, hplace, hsorted⟩ := mmap_spec hs hi href hmmap
    obtain ⟨hle, l', hl', hroom⟩ := (hfits.resolve_left href).resolve_left (by simp)
    rw [hl'.unique hs.links.chain] at hroom
    have hpos : 0 < roundUp call.size :=
      (pos_of_ne_zero fun hz => href (.inr (.inl hz))).trans_le (le_roundUp hle)
    have hs' := hsorted hroom hpos
    have hbase : (s'.area i).base = base := VmArea.base_of_unlinked hins.self
    have hsize : (s'.area i).size = roundUp call.size := by
      rw [VmArea.size_of_unlinked hins.self, assign_area, if_pos rfl]
      rfl
    refine .inr ⟨href, by simp, rfl, ⟨_, by simpa [Kernel.setProcess] using hs'⟩, ?_, i, hi,
      fun r x => ?_⟩
    · rw [← hplace hroom, ← hbase]
      exact (hs'.placed i (by simp)).base_le
    · rw [← hplace hroom]
      refine newArea_holds hs hs' hi (fun q hq => ?_) hbase hsize
      rw [hins.others q hq, assign_area, if_neg hq]

lemma RegionInv.mmap_iff (h : RegionInv p st) {block : Option (Nat × VmArea)} {call : MmapCall}
    {ret : Nat} (hfresh : Fresh (st.kernel.process p).mmaps block)
    (hfits : SizeFits (st.kernel.process p).mmaps block call)
    (hcall : st.kernel.mmap fuel p block call = some (k, ret)) :
    (StaysApart p st (.mmap block call) → RegionInv p ⟨k, st.userPages⟩) ∧
      (RegionsApart p ⟨k, st.userPages⟩ → StaysApart p st (.mmap block call)) := by
  obtain ⟨l, hs⟩ := h.sorted
  rcases mmap_effect hs hfresh hfits hcall with ⟨hno, hprocess, hthread⟩ |
    ⟨href, hblock, hthread, hsorted, hplace, i, hi, hholds⟩
  · have hsame : SameRegions p st.kernel k :=
      ⟨by rw [hprocess], by rw [hprocess], by rw [hprocess], fun t => by rw [hthread]⟩
    refine ⟨fun _ => ⟨by rw [hprocess]; exact h.sorted, by rw [hthread]; exact h.guarded,
      h.apart.congr hsame h.apart.pages⟩, fun _ => hno.imp_right Or.inl⟩
  · constructor
    · intro hgood
      have hnew := (hgood.resolve_left href).resolve_left hblock l hs.links.chain
      refine ⟨hsorted, by rw [hthread]; exact h.guarded, fun r r' x hr hr' => ?_, fun r x hr => ?_,
        h.apart.pages⟩
      · rw [hholds] at hr hr'
        split_ifs at hr hr' with hri hri' hri'
        · rw [hri, hri']
        · exact absurd hr' (hnew x hr.1 hr.2 r')
        · exact absurd hr (hnew x hr'.1 hr'.2 r)
        · exact h.apart.apart r r' x hr hr'
      · rw [hholds] at hr
        split_ifs at hr with hri
        · exact (hr.2.trans_le hplace).trans (by norm_num [mmapStart, userEnd])
        · exact h.apart.user r x hr
    · intro hapart
      refine .inr (.inr fun l' hl' x hlo hhi r hr => ?_)
      rw [hl'.unique hs.links.chain] at hlo hhi
      have hne : r ≠ .area i := by
        rintro rfl
        exact hi (hs.links.chain.reaches_iff.mp hr.1)
      apply hne
      refine hapart.apart r (.area i) x ?_ ?_
      · rw [hholds, if_neg hne]
        exact hr
      · rw [hholds, if_pos rfl]
        exact ⟨hlo, hhi⟩

/-! ## Runs -/

lemma regionMachine_start (h : (regionMachine p).start st) : RegionInv p st := by
  obtain ⟨hheap, hhead, hpages, hstacks, hdisjoint⟩ := h
  have hnoheap : ∀ x, ¬ Region.heap.Holds st.kernel p x := by
    rintro x ⟨hlo, hhi⟩
    omega
  have hnoarea : ∀ i x, ¬ (Region.area i).Holds st.kernel p x := by
    rintro i x ⟨hreach, -⟩
    rw [hhead] at hreach
    cases hreach
  refine ⟨⟨[], ⟨⟨hhead, trivial⟩, by simp, Pairwise.nil⟩⟩,
    fun t th hth hp => (hstacks t th hth hp).guarded, fun r r' x hr hr' => ?_, fun r x hr => ?_,
    by simp [hpages]⟩
  · cases r with
    | heap => exact absurd hr (hnoheap x)
    | area i => exact absurd hr (hnoarea i x)
    | stack t =>
      cases r' with
      | heap => exact absurd hr' (hnoheap x)
      | area i => exact absurd hr' (hnoarea i x)
      | stack t' => rw [hdisjoint t t' x hr hr']
  · cases r with
    | heap => exact absurd hr (hnoheap x)
    | area i => exact absurd hr (hnoarea i x)
    | stack t =>
      obtain ⟨th, hth, hp, -, hhi⟩ := hr
      exact hhi.trans_le (hstacks t th hth hp).le

/-- The regions stay apart in every run in which `brk` and `mmap` keep the new heap and
the new area away from the other regions. The next step keeps them apart exactly when
it does so as well; faults and `munmap` always do. -/
theorem user_regions_apart_iff (run : (regionMachine p).Reached (StaysApart p) st) :
    (regionMachine p).SafeExactlyWhen (RegionsApart p) (StaysApart p) st := by
  refine run.safeExactlyWhen (fun s (hs : (regionMachine p).start s) => regionMachine_start hs)
    (fun s a s' h hgood hstep => ?_) (fun s h => h.apart) (fun s a s' h hstep hbad hsafe => ?_)
  · cases hstep with
    | brk haddr => exact h.brk hgood
    | mmap hsize hfresh hfits hcall => exact (h.mmap_iff hfresh hfits hcall).1 hgood
    | munmap hcall => exact h.munmap hcall
    | fault hth hp hfault hcall => exact h.fault hth hp hcall
  · apply hbad
    cases hstep with
    | brk haddr => exact staysApart_brk hsafe
    | mmap hsize hfresh hfits hcall => exact (h.mmap_iff hfresh hfits hcall).2 hsafe
    | munmap hcall => exact trivial
    | fault hth hp hfault hcall => exact trivial

/-! ## A new process -/

def emptyFs : FsState := ⟨[], [], [], fun _ => none, fun _ => 0, fun _ => 0⟩

/-- The heap of a small program. -/
def newProcess : Process :=
  ⟨0, some 0, noAreas.areas, noAreas.areas, fun _ => none, 0x600000, 0x600000, 0⟩

/-- The first thread of a process, with a stack of 2 MiB. -/
def mainThread : UserThread :=
  ⟨0, 0x7FFFFFDFF000, 0x7FFFFFFFF000, 0x7FFFFFFFD000, 0x7FFFFFFFE000⟩

def newKernel : Kernel where
  fs := emptyFs
  totalPages := 0
  pages := fun _ _ => none
  process := fun _ => newProcess
  thread := fun t => if t = 0 then some mainThread else none
  file := fun _ => none

lemma newKernel_thread (hth : newKernel.thread t = some th) : t = 0 ∧ th = mainThread := by
  simp only [newKernel] at hth
  split_ifs at hth with ht
  exact ⟨ht, (some.inj hth).symm⟩

/-- The only region that holds an address is the stack of the main thread. -/
lemma newKernel_holds (h : r.Holds newKernel 0 x) : r = .stack 0 ∧ 0x7FFFFFDFF000 ≤ x := by
  cases r with
  | heap =>
    have hlo : 0x600000 ≤ x := h.1
    have hhi : x < 0x600000 := h.2
    omega
  | area i =>
    have hreach : Reaches noAreas.areas.next none i := h.1
    cases hreach
  | stack t =>
    obtain ⟨th, hth, -, hlo, -⟩ := h
    obtain ⟨rfl, rfl⟩ := newKernel_thread hth
    exact ⟨rfl, hlo⟩

lemma newKernel_start : (regionMachine 0).start ⟨newKernel, []⟩ := by
  refine ⟨rfl, rfl, rfl, fun t th hth _ => ?_, fun t t' x h h' => ?_⟩
  · obtain ⟨-, rfl⟩ := newKernel_thread hth
    exact ⟨by decide, by decide, by decide, by decide, rfl, by decide⟩
  · have ht : Region.stack t = .stack 0 := (newKernel_holds h).1
    have ht' : Region.stack t' = .stack 0 := (newKernel_holds h').1
    exact Region.stack.inj (ht.trans ht'.symm)

/-- The process asks for one page of heap. -/
theorem user_regions_apart_onePage : ∃ st, (regionMachine 0).Reached (StaysApart 0) st ∧
      (st.kernel.process 0).currentHeapEnd = 0x601000 ∧
      (regionMachine 0).SafeExactlyWhen (RegionsApart 0) (StaysApart 0) st := by
  have hgood : StaysApart 0 ⟨newKernel, []⟩ (.brk 0x601000) := by
    refine .inr fun x _ hhi => ⟨?_, fun r hr => ?_⟩
    · simp only [userEnd]
      omega
    · have hlo := (newKernel_holds hr).2
      omega
  have hstep : (regionMachine 0).step ⟨newKernel, []⟩ (.brk 0x601000)
      ⟨(newKernel.brk 0 0x601000).1, []⟩ := RegionStep.brk (by norm_num)
  have run := Machine.Reached.step (.start newKernel_start) hgood hstep
  exact ⟨_, run, rfl, user_regions_apart_iff run⟩

/-- The heap is extended into the kernel half, and a fault there maps a page for user
mode. -/
theorem brk_reaches_kernel : (regionMachine 0).start ⟨newKernel, []⟩ ∧ ∃ st₁ st₂,
      RegionStep 0 ⟨newKernel, []⟩ (.brk 0xFFFF800000001000) st₁ ∧
      RegionStep 0 st₁ (.fault 0 0xFFFF800000000000) st₂ ∧
      0xFFFF800000000000 ∈ st₂.userPages ∧ ¬ RegionsApart 0 st₁ ∧ ¬ RegionsApart 0 st₂ := by
  have hfault : (newKernel.brk 0 0xFFFF800000001000).1.pageFaultHandler 0 0 0xFFFF800000000000 =
      some ((newKernel.brk 0 0xFFFF800000001000).1.expandHeap 0 0xFFFF800000000000,
        .mapped 0xFFFF800000000000 6) := by rfl
  refine ⟨newKernel_start, ⟨_, _⟩, ⟨_, _⟩, .brk (by norm_num),
    .fault (by rw [(brk_mmaps _ _ _).2]; rfl) rfl (by norm_num) hfault, by decide,
    fun h => ?_, fun h => ?_⟩
  · have hlt := h.user .heap 0xFFFF800000000000 ⟨by decide, by decide⟩
    exact absurd hlt (by decide)
  · have hle := h.pages 0xFFFF800000000000 (by decide)
    exact absurd hle (by decide)

end DestinX.Vm
