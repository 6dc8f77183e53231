import DestinX.Vm.CachedFrames
import DestinX.Vm.Regions

/-!
# User stacks

`create_user_thread` takes an area for the stack from the list of the process, and
`destroy_thread` gives one back. The area is found by its upper end, but the address that is
looked for is the lower end of the stack. So the stack of the thread itself stays on the list and
mapped, and what is released is the stack right below.
-/

namespace DestinX.Vm

open Base Fs Function Option

def userStackMax : Nat := 0x7FFFFFFFF000

/-- `user_alloc_stack` for process `p`, with the block that `kmalloc` returns. The result
is the upper end of the stack, or null. -/
def Kernel.userAllocStack (k : Kernel) (fuel p size : Nat) (block : Option (Nat × VmArea)) :
    Option (Kernel × Option Nat) :=
  if size = 0 then some (k, none)
  else
    match block with
    | none => some (k, none)
    | some (i, garbage) =>
      let s := (k.process p).ustacks.assign i fun _ => { garbage with size := size }
      (addToList userStackMax fuel s i).map fun s' =>
        let r := (k.setProcess p fun pr => { pr with ustacks := s' }).allocPage
        (r.2.mapPage (k.process p).cr3 r.1 (sub64 (s'.area i).base 4096)
          (Paging.pteWritable ||| Paging.pteUser), some (s'.area i).base)

/-- What `create_user_thread` does to user memory. The thread is the first one of its
process before the stack is allocated. -/
def Kernel.createUserThread (k : Kernel) (fuel p t size : Nat) (block : Option (Nat × VmArea)) :
    Option Kernel :=
  ((k.setProcess p fun pr => { pr with threads := some t }).userAllocStack fuel p size block).map
    fun r =>
      match r.2 with
      | none => r.1
      | some top => r.1.setThread t
          ⟨p, sub64 top size, top, sub64 (sub64 top 4096) 4096, sub64 top 4096⟩

/-! ## Runs -/

/-- `areaOf` is the area that was created for a thread. -/
structure StackState where
  kernel : Kernel
  areaOf : Nat → Nat

inductive StackAction where
  | create (p t size : Nat) (block : Option (Nat × VmArea))
  | destroy (t : Nat)

def Kernel.OnStackList (k : Kernel) (p i : Nat) : Prop :=
  Reaches (k.process p).ustacks.next (k.process p).ustacks.head i

/-- Sizes are multiples of a page. A thread is created where none is, and its area is a
block that is not in use: areas are never given back to `kmalloc`. -/
inductive StackStep : StackState → StackAction → StackState → Prop
  | create {st : StackState} {k' : Kernel} {p t size i fuel : Nat} {garbage : VmArea}
      (hcall : st.kernel.createUserThread fuel p t size (some (i, garbage)) = some k')
      (hsize : size < 2 ^ 64) (hpages : 4096 ∣ size) (hpos : 0 < size)
      (ht : st.kernel.thread t = none) (hlist : ¬ st.kernel.OnStackList p i)
      (hused : ∀ u th, st.kernel.thread u = some th → st.areaOf u ≠ i) :
      StackStep st (.create p t size (some (i, garbage))) ⟨k', update st.areaOf t i⟩
  | createFails {st : StackState} {k' : Kernel} {p t size fuel : Nat}
      {block : Option (Nat × VmArea)}
      (hcall : st.kernel.createUserThread fuel p t size block = some k')
      (hfail : size = 0 ∨ block = none) (ht : st.kernel.thread t = none) :
      StackStep st (.create p t size block) ⟨k', st.areaOf⟩
  | destroy {st : StackState} {k' : Kernel} {t fuel : Nat}
      (hcall : st.kernel.destroyThread fuel t = some k') :
      StackStep st (.destroy t) ⟨k', st.areaOf⟩

/-- No threads, and well-formed lists of stacks. -/
def stackMachine : Machine StackState StackAction where
  start st := (∀ t, st.kernel.thread t = none) ∧
    ∀ p, ∃ l, DList (st.kernel.process p).ustacks.next (st.kernel.process p).ustacks.prev
      (st.kernel.process p).ustacks.head l
  step := StackStep

/-- The call has released the stack of the thread and no other: the area leaves the list,
the pages between the ends of the stack are unmapped and their frames freed, everything
else is as before. -/
structure OwnStackOnly (k k' : Kernel) (th : UserThread) (a : Nat) : Prop where
  was : k.OnStackList th.process a
  areas : ∀ i, k'.OnStackList th.process i ↔ k.OnStackList th.process i ∧ i ≠ a
  bounds : ∀ i, k'.OnStackList th.process i →
    ((k'.process th.process).ustacks.area i).unlinked =
      ((k.process th.process).ustacks.area i).unlinked
  pages : ∀ v, 4096 ∣ v → k'.pages (k.process th.process).cr3 v =
    if th.stackBottom ≤ v ∧ v < th.stackTop then none else k.pages (k.process th.process).cr3 v
  frames : ∀ f, f ∈ k'.fs.free ↔ f ∈ k.fs.free ∨ ∃ v flags, 4096 ∣ v ∧ th.stackBottom ≤ v ∧
    v < th.stackTop ∧ k.pages (k.process th.process).cr3 v = some (f, flags)

/-! ## The lists -/

variable {s s' : AreaList} {k k' : Kernel} {st st' : StackState} {act : StackAction}
  {th : UserThread}
  {block : Option (Nat × VmArea)} {l : List Nat} {start n fuel c i p q t size : Nat}
  {next : Option Nat}

/-- The loop stops between two neighbours. -/
lemma findGap_split (hc : Chain s.next (some c) (c :: l))
    (hfind : findGap s n fuel c (s.next c) = some (q, next)) :
    ∃ l1 l2, c :: l = l1 ++ q :: l2 ∧ next = l2.head? := by
  induction fuel generalizing c l with
  | zero => cases hfind
  | succ fuel ih =>
    cases l with
    | nil =>
      have hnext : s.next c = none := hc.2
      rw [hnext] at hfind
      cases hfind
      exact ⟨[], [], rfl, rfl⟩
    | cons d l =>
      have hnext : s.next c = some d := hc.2.1
      rw [hnext, findGap] at hfind
      split_ifs at hfind with hgap
      · cases hfind
        exact ⟨[], d :: l, rfl, rfl⟩
      · obtain ⟨l1, l2, hsplit, hhead⟩ := ih ⟨rfl, hc.2.2⟩ hfind
        exact ⟨c :: l1, l2, by rw [hsplit, List.cons_append], hhead⟩

/-- A new area is on the list, whatever room there is for it. -/
lemma addToList_inserted (hd : DList s.next s.prev s.head l) (hi : i ∉ l) (hstart : start < 2 ^ 64)
    (hadd : addToList start fuel s i = some s') :
    ∃ b < 2 ^ 64, ∃ l1 l2, l = l1 ++ l2 ∧ Inserted s s' i b l1 l2 := by
  cases l with
  | nil =>
    have hhead : s.head = none := hd.chain
    rw [addToList, hhead] at hadd
    cases hadd
    exact ⟨start, hstart, [], [], rfl, first_inserted s i start⟩
  | cons c l =>
    have hchain := hd.chain
    rw [addToList, hchain.1] at hadd
    obtain ⟨⟨q, next⟩, hfind, rfl⟩ := map_eq_some_iff.mp hadd
    obtain ⟨l1, l2, hsplit, rfl⟩ := findGap_split ⟨rfl, hchain.2⟩ hfind
    have hlt : (s.area q).lower < 2 ^ 64 := Nat.mod_lt _ (by norm_num)
    refine ⟨_, hlt, l1 ++ [q], l2, by rw [hsplit]; simp, ?_⟩
    exact placeBetween_inserted (hsplit ▸ hd) (hsplit ▸ hi) _

/-! ## Every thread has its area -/

structure StacksKept (st : StackState) : Prop where
  links : ∀ p, ∃ l, DList (st.kernel.process p).ustacks.next (st.kernel.process p).ustacks.prev
    (st.kernel.process p).ustacks.head l
  top : ∀ t th, st.kernel.thread t = some th →
    th.stackTop = ((st.kernel.process th.process).ustacks.area (st.areaOf t)).base ∧
      th.stackBottom ≠ th.stackTop

lemma sub64_ne {a b : Nat} (ha : a < 2 ^ 64) (hb : b < 2 ^ 64) (hpos : 0 < b) : sub64 a b ≠ a := by
  simp only [sub64]
  omega

lemma StacksKept.congr (h : StacksKept st)
    (hlinks : ∀ p, ∃ l, DList (k'.process p).ustacks.next (k'.process p).ustacks.prev
      (k'.process p).ustacks.head l)
    (hthread : ∀ t th, k'.thread t = some th → st.kernel.thread t = some th)
    (harea : ∀ p i, ((k'.process p).ustacks.area i).unlinked =
      ((st.kernel.process p).ustacks.area i).unlinked) :
    StacksKept ⟨k', st.areaOf⟩ := by
  refine ⟨hlinks, fun t th hth => ?_⟩
  obtain ⟨htop, hne⟩ := h.top t th (hthread t th hth)
  exact ⟨htop.trans (VmArea.base_of_unlinked (harea _ _)).symm, hne⟩

/-! ## Creating -/

lemma setProcess_process (k : Kernel) (p q : Nat) (f : Process → Process) :
    (k.setProcess p f).process q = if q = p then f (k.process q) else k.process q := by
  by_cases hq : q = p
  · subst hq
    simp [Kernel.setProcess]
  · simp [Kernel.setProcess, hq]

/-- The list of the process has a new area, and the new thread has its bounds. -/
lemma createUserThread_some {garbage : VmArea} (hpos : 0 < size)
    (hcall : k.createUserThread fuel p t size (some (i, garbage)) = some k') :
    ∃ s', addToList userStackMax fuel
        ((k.process p).ustacks.assign i fun _ => { garbage with size := size }) i = some s' ∧
      (∀ q, (k'.process q).ustacks = if q = p then s' else (k.process q).ustacks) ∧
      (∀ q, (k'.process q).cr3 = (k.process q).cr3) ∧
      (∃ f, k'.pages = fun c v =>
        if c = (k.process p).cr3 ∧ v = sub64 (s'.area i).base 4096 then some f else k.pages c v) ∧
      ∃ th : UserThread, k'.thread = update k.thread t (some th) ∧ th.process = p ∧
        th.stackTop = (s'.area i).base ∧ th.stackBottom = sub64 (s'.area i).base size ∧
        th.pageGuardMax = sub64 (s'.area i).base 4096 ∧
        th.pageGuardMin = sub64 th.pageGuardMax 4096 := by
  obtain ⟨r, halloc, rfl⟩ := map_eq_some_iff.mp hcall
  have hlist : ((k.setProcess p fun pr => { pr with threads := some t }).process p).ustacks =
      (k.process p).ustacks := by rw [setProcess_process, if_pos rfl]
  rw [Kernel.userAllocStack, if_neg hpos.ne'] at halloc
  obtain ⟨s', hadd, rfl⟩ := map_eq_some_iff.mp halloc
  rw [hlist] at hadd
  refine ⟨s', hadd, fun q => ?_, fun q => ?_,
    ⟨(k.allocPage.1, Paging.pteWritable ||| Paging.pteUser), ?_⟩, _, rfl, rfl, rfl, rfl, rfl, rfl⟩
  · simp only [Kernel.setThread, Kernel.mapPage, Kernel.allocPage, setProcess_process]
    split_ifs <;> rfl
  · simp only [Kernel.setThread, Kernel.mapPage, Kernel.allocPage, setProcess_process]
    split_ifs <;> rfl
  · simp only [Kernel.setThread, Kernel.mapPage, Kernel.allocPage, setProcess_process, if_true]
    rfl

lemma createUserThread_fails (hfail : size = 0 ∨ block = none)
    (hcall : k.createUserThread fuel p t size block = some k') :
    k'.thread = k.thread ∧ k'.pages = k.pages ∧ ∀ q,
      (k'.process q).ustacks = (k.process q).ustacks ∧ (k'.process q).cr3 = (k.process q).cr3 := by
  obtain ⟨r, halloc, rfl⟩ := map_eq_some_iff.mp hcall
  have hnone : (k.setProcess p fun pr => { pr with threads := some t }).userAllocStack fuel p size
      block = some (k.setProcess p fun pr => { pr with threads := some t }, none) := by
    unfold Kernel.userAllocStack
    rcases hfail with rfl | rfl
    · rfl
    · split_ifs <;> rfl
  rw [hnone] at halloc
  cases halloc
  refine ⟨rfl, rfl, fun q => ?_⟩
  rw [setProcess_process]
  split_ifs <;> exact ⟨rfl, rfl⟩

lemma StacksKept.create {garbage : VmArea} (h : StacksKept st) (hsize : size < 2 ^ 64)
    (hpos : 0 < size) (hlist : ¬ st.kernel.OnStackList p i)
    (hused : ∀ u th, st.kernel.thread u = some th → st.areaOf u ≠ i)
    (hcall : st.kernel.createUserThread fuel p t size (some (i, garbage)) = some k') :
    StacksKept ⟨k', update st.areaOf t i⟩ := by
  obtain ⟨s', hadd, hstacks, -, -, new, hthread, rfl, htop, hbottom, -⟩ :=
    createUserThread_some hpos hcall
  obtain ⟨l, hd⟩ := h.links new.process
  have hi : i ∉ l := fun hmem => hlist (hd.chain.reaches_iff.mpr hmem)
  obtain ⟨b, hb, l1, l2, rfl, hins⟩ := addToList_inserted
    (links_congr hd (assign_head _ i _) (assign_area_of_not_mem hi)) hi (by decide) hadd
  have hbase : (s'.area i).base = b := VmArea.base_of_unlinked hins.self
  refine ⟨fun q => ?_, fun u th hth => ?_⟩
  · rw [hstacks]
    split_ifs with hq
    · exact ⟨_, hins.links⟩
    · exact h.links q
  · dsimp only at hth ⊢
    rw [hthread] at hth
    by_cases hut : u = t
    · subst hut
      rw [update_self] at hth ⊢
      cases hth
      rw [hstacks, if_pos rfl, htop, hbottom]
      exact ⟨rfl, sub64_ne (hbase ▸ hb) hsize hpos⟩
    · rw [update_of_ne hut] at hth ⊢
      obtain ⟨htop', hne'⟩ := h.top u th hth
      refine ⟨?_, hne'⟩
      rw [hstacks]
      split_ifs with hq
      · have hiu := hused u th hth
        rw [htop', hq, VmArea.base_of_unlinked (hins.others _ hiu)]
        simp [assign_area, hiu]
      · exact htop'

/-! ## Destroying -/

/-- What the call does to the lists: nothing, or it removes an area whose upper end is
the lower end of the stack. -/
lemma destroyThread_stacks (hcall : k.destroyThread fuel t = some k') :
    ∃ th, k.thread t = some th ∧ k'.thread = update k.thread t none ∧
      ((∀ q, (k'.process q).ustacks = (k.process q).ustacks) ∨
        ∃ i, ((k.process th.process).ustacks.area i).base = th.stackBottom ∧
          k.OnStackList th.process i ∧
          ∀ q, (k'.process q).ustacks =
            if q = th.process then removeFromList (k.process q).ustacks i
            else (k.process q).ustacks) := by
  obtain ⟨th, hth, rfl | ⟨i, -, hfound, rfl⟩⟩ := destroyThread_cases hcall
  · exact ⟨th, hth, rfl, .inl fun _ => rfl⟩
  · obtain ⟨hbase, hreach⟩ := searchArea_found hfound
    refine ⟨th, hth, rfl, .inr ⟨i, by simpa using hbase, hreach, fun q => ?_⟩⟩
    rw [setProcess_process, unmapArea_process]
    split_ifs <;> rfl

/-- The area of the thread stays on the list, and one that is removed ends where its
stack begins. -/
lemma StacksKept.destroy (h : StacksKept st) (hcall : st.kernel.destroyThread fuel t = some k') :
    StacksKept ⟨k', st.areaOf⟩ ∧ ∃ th, st.kernel.thread t = some th ∧
      (st.kernel.OnStackList th.process (st.areaOf t) → k'.OnStackList th.process (st.areaOf t)) ∧
      ∀ i, st.kernel.OnStackList th.process i → ¬ k'.OnStackList th.process i →
        ((st.kernel.process th.process).ustacks.area i).base = th.stackBottom := by
  obtain ⟨th, hth, hthread, hstacks⟩ := destroyThread_stacks hcall
  have hold : ∀ u w, k'.thread u = some w → st.kernel.thread u = some w := by
    intro u w hu
    rw [hthread] at hu
    rcases update_eq_cases hu with ⟨-, hu⟩ | ⟨hut, hu⟩
    · cases hu
    · exact hu
  obtain ⟨htop, hne⟩ := h.top t th hth
  rcases hstacks with hsame | ⟨i, hbase, hreach, hremove⟩
  · have hlists : ∀ i, k'.OnStackList th.process i ↔ st.kernel.OnStackList th.process i := by
      intro i
      rw [Kernel.OnStackList, hsame]
      exact Iff.rfl
    refine ⟨h.congr (fun q => ?_) hold fun q j => ?_, th, hth, (hlists _).mpr,
      fun i hon hoff => absurd ((hlists i).mpr hon) hoff⟩
    · rw [hsame]
      exact h.links q
    · rw [hsame]
  · obtain ⟨l, hd⟩ := h.links th.process
    have hi : i ∈ l := hd.chain.reaches_iff.mp hreach
    obtain ⟨l1, l2, rfl⟩ := List.append_of_mem hi
    have hd' := removeFromList_links hd
    have hstays : ∀ j, j ≠ i → st.kernel.OnStackList th.process j →
        k'.OnStackList th.process j := by
      intro j hji hon
      rw [Kernel.OnStackList, hremove, if_pos rfl]
      refine hd'.chain.reaches_iff.mpr ?_
      have hmem := hd.chain.reaches_iff.mp hon
      simpa [hji] using hmem
    refine ⟨h.congr (fun q => ?_) hold fun q j => ?_, th, hth, hstays _ ?_, fun j hon hoff => ?_⟩
    · rw [hremove]
      split_ifs with hq
      · exact ⟨_, hq ▸ hd'⟩
      · exact h.links q
    · rw [hremove]
      split_ifs
      · exact removeFromList_unlinked _ _ _
      · rfl
    · intro heq
      rw [heq, hbase] at htop
      exact hne htop.symm
    · by_contra hother
      refine hoff (hstays j ?_ hon)
      rintro rfl
      exact hother hbase

lemma StacksKept.step (h : StacksKept st) (hstep : StackStep st act st') : StacksKept st' := by
  cases hstep with
  | create hcall hsize hpages hpos ht hlist hused => exact h.create hsize hpos hlist hused hcall
  | createFails hcall hfail ht =>
    obtain ⟨hthread, -, hstacks⟩ := createUserThread_fails hfail hcall
    refine h.congr (fun q => ?_) (fun u th hu => hthread ▸ hu) fun q j => by rw [(hstacks q).1]
    rw [(hstacks q).1]
    exact h.links q
  | destroy hcall => exact (h.destroy hcall).1

/-- No call of `destroy_thread` for a user thread, at any point of any run, releases the
stack of that thread and no other. An area that leaves the list is one that ends where
the stack of the thread begins. -/
theorem destroy_never_own_stack (run : stackMachine.Reached (fun _ _ => True) st)
    (hth : st.kernel.thread t = some th) (hstep : StackStep st (.destroy t) st') :
    ¬ OwnStackOnly st.kernel st'.kernel th (st.areaOf t) ∧
      ∀ i, st.kernel.OnStackList th.process i → ¬ st'.kernel.OnStackList th.process i →
        ((st.kernel.process th.process).ustacks.area i).base = th.stackBottom := by
  have hkept : StacksKept st := by
    refine run.invariant (fun st hstart => ?_) fun st act st' h _ hstep => h.step hstep
    refine ⟨hstart.2, fun t th hth => ?_⟩
    rw [hstart.1 t] at hth
    cases hth
  cases hstep with
  | destroy hcall =>
    obtain ⟨-, th', hth', hstays, hleaves⟩ := hkept.destroy hcall
    rw [hth] at hth'
    cases hth'
    exact ⟨fun hown => ((hown.areas (st.areaOf t)).mp (hstays hown.was)).2 rfl, hleaves⟩

/-! ## Two stacks -/

/-- A process without threads, and two free frames. -/
def stackKernel : Kernel :=
  { newKernel with fs := ⟨[], [4096, 8192], [], fun _ => none, fun _ => 0, fun _ => 0⟩,
                   totalPages := 3, thread := fun _ => none }

/-- A thread with a stack of two pages. -/
def oneStack : Kernel :=
  (stackKernel.createUserThread 1 0 0 8192 (some (1, blankArea))).getD stackKernel

/-- A second one right below it. -/
def twoStacks : Kernel := (oneStack.createUserThread 2 0 1 8192 (some (2, blankArea))).getD oneStack

lemma oneStack_eq :
    stackKernel.createUserThread 1 0 0 8192 (some (1, blankArea)) = some oneStack := by rfl

lemma twoStacks_eq :
    oneStack.createUserThread 2 0 1 8192 (some (2, blankArea)) = some twoStacks := by rfl

/-- The upper one is destroyed. -/
def upperDestroyed : Kernel := (twoStacks.destroyThread 3 0).getD twoStacks

lemma upperDestroyed_eq : twoStacks.destroyThread 3 0 = some upperDestroyed := by
  have hsome : (twoStacks.destroyThread 3 0).isSome = true := by decide +kernel
  obtain ⟨k, hk⟩ := isSome_iff_exists.mp hsome
  rw [upperDestroyed, hk, getD_some]

lemma twoStacks_list : Chain (twoStacks.process 0).ustacks.next
    (twoStacks.process 0).ustacks.head [1, 2] := ⟨rfl, rfl, rfl⟩

lemma upperDestroyed_list : Chain (upperDestroyed.process 0).ustacks.next
    (upperDestroyed.process 0).ustacks.head [1] := ⟨rfl, rfl⟩

def areasOfTwo : Nat → Nat := update (update (fun _ => 0) 0 1) 1 2

lemma twoStacks_reached : stackMachine.Reached (fun _ _ => True) ⟨twoStacks, areasOfTwo⟩ := by
  have hstart : stackMachine.start ⟨stackKernel, fun _ => 0⟩ :=
    ⟨fun _ => rfl, fun _ => ⟨[], rfl, trivial⟩⟩
  have hempty : ¬ stackKernel.OnStackList 0 1 := fun h => nomatch h
  have hone : Chain (oneStack.process 0).ustacks.next (oneStack.process 0).ustacks.head [1] :=
    ⟨rfl, rfl⟩
  have hstep1 : StackStep ⟨stackKernel, fun _ => 0⟩ (.create 0 0 8192 (some (1, blankArea)))
      ⟨oneStack, update (fun _ => 0) 0 1⟩ :=
    .create oneStack_eq (by decide) (by decide) (by decide) rfl hempty fun _ _ h => nomatch h
  have hstep2 : StackStep ⟨oneStack, update (fun _ => 0) 0 1⟩
      (.create 0 1 8192 (some (2, blankArea))) ⟨twoStacks, areasOfTwo⟩ := by
    refine .create twoStacks_eq (by decide) (by decide) (by decide) rfl ?_ fun u th h => ?_
    · rw [Kernel.OnStackList, hone.reaches_iff]
      decide
    · by_cases hu : u = 0
      · subst hu
        decide
      · have hzero : update (fun _ => 0) 0 1 u = 0 := update_of_ne hu _ _
        exact fun heq => absurd (hzero.symm.trans heq) (by decide)
  exact .step (.step (.start hstart) trivial hstep1) trivial hstep2

/-- Thread 0 is destroyed with thread 1 below it. -/
theorem destroy_never_own_stack_upper : ∃ th, twoStacks.thread 0 = some th ∧
      ¬ OwnStackOnly twoStacks upperDestroyed th (areasOfTwo 0) ∧
      ∀ i, twoStacks.OnStackList th.process i → ¬ upperDestroyed.OnStackList th.process i →
        ((twoStacks.process th.process).ustacks.area i).base = th.stackBottom :=
  ⟨_, rfl, destroy_never_own_stack twoStacks_reached rfl (.destroy upperDestroyed_eq)⟩

/-- The stack of thread 1 is released, with the frame of its first page, while thread 1 is
there. The stack of thread 0 stays on the list. -/
theorem destroy_releases_lower_stack :
    stackMachine.Reached (fun _ _ => True) ⟨twoStacks, areasOfTwo⟩ ∧
      StackStep ⟨twoStacks, areasOfTwo⟩ (.destroy 0) ⟨upperDestroyed, areasOfTwo⟩ ∧
      upperDestroyed.OnStackList 0 (areasOfTwo 0) ∧
      twoStacks.OnStackList 0 (areasOfTwo 1) ∧ ¬ upperDestroyed.OnStackList 0 (areasOfTwo 1) ∧
      upperDestroyed.thread 1 = twoStacks.thread 1 ∧
      (∃ th flags, twoStacks.thread 1 = some th ∧
        twoStacks.pages 0 (th.stackTop - 4096) = some (8192, flags) ∧
        upperDestroyed.pages 0 (th.stackTop - 4096) = none) ∧
      8192 ∈ upperDestroyed.fs.free := by
  refine ⟨twoStacks_reached, .destroy upperDestroyed_eq, ?_, ?_, ?_, rfl, ?_, ?_⟩
  · rw [Kernel.OnStackList, upperDestroyed_list.reaches_iff]
    decide
  · rw [Kernel.OnStackList, twoStacks_list.reaches_iff]
    decide
  · rw [Kernel.OnStackList, upperDestroyed_list.reaches_iff]
    decide
  · exact ⟨_, _, rfl, rfl, rfl⟩
  · decide +kernel

end DestinX.Vm
