import DestinX.Sched.Thread
import DestinX.Base.Ring

/-!
# The ready ring

`ReadyRing s l` says that the ready list is the circle `l`, starting at
`ready_list_head`. Each function of the model gets one specification: which circle
it leaves, which threads it can change and which of their fields.
-/

namespace DestinX.Sched

open Base List Option

def Scheduler.next (s : Scheduler) (t : Nat) : Option Nat := (s.threads t).next

def Scheduler.prev (s : Scheduler) (t : Nat) : Option Nat := (s.threads t).prev

structure ReadyRing (s : Scheduler) (l : List Nat) : Prop where
  head : s.readyListHead = l.head?
  ring : Ring s.next s.prev l

/-- Thread `t` is met when the list is followed from its head. -/
def InRing (s : Scheduler) (t : Nat) : Prop := Reaches s.next s.readyListHead t

lemma ReadyRing.inRing_iff {s : Scheduler} {l : List Nat} {t : Nat} (h : ReadyRing s l) :
    InRing s t ↔ t ∈ l := by
  rw [InRing, h.head]
  exact ⟨fun hr => h.ring.mem_of_reaches hr fun _ => mem_of_head?, h.ring.reaches⟩

/-- The fields of a thread other than its links. -/
def Thread.unlinked (x : Thread) : Thread := { x with prev := none, next := none }

/-- The fields of a thread that a switch does not touch. -/
def Thread.body (x : Thread) : Thread := { x.unlinked with rsp := 0, state := .ready }

variable {s s' : Scheduler} {l : List Nat} {t u a c rsp : Nat} {f : Thread → Thread}
  {p q : Option Nat} {x y : Thread} {state : ThreadState}

/-! ## Writes -/

@[simp] lemma setNext_next : (x.setNext p).next = p := rfl
@[simp] lemma setNext_prev : (x.setNext p).prev = x.prev := rfl
@[simp] lemma setNext_unlinked : (x.setNext p).unlinked = x.unlinked := rfl
@[simp] lemma setPrev_next : (x.setPrev p).next = x.next := rfl
@[simp] lemma setPrev_prev : (x.setPrev p).prev = p := rfl
@[simp] lemma setPrev_unlinked : (x.setPrev p).unlinked = x.unlinked := rfl
@[simp] lemma setState_next : (x.setState state).next = x.next := rfl
@[simp] lemma setState_prev : (x.setState state).prev = x.prev := rfl
@[simp] lemma setState_state : (x.setState state).state = state := rfl
@[simp] lemma setState_body : (x.setState state).body = x.body := rfl
@[simp] lemma setRsp_next : (x.setRsp rsp).next = x.next := rfl
@[simp] lemma setRsp_prev : (x.setRsp rsp).prev = x.prev := rfl
@[simp] lemma setRsp_state : (x.setRsp rsp).state = x.state := rfl
@[simp] lemma setRsp_body : (x.setRsp rsp).body = x.body := rfl

lemma body_of_unlinked (h : x.unlinked = y.unlinked) : x.body = y.body := by
  rw [Thread.body, h]
  rfl

lemma fields_of_body (h : x.body = y.body) :
    x.nextBlocked = y.nextBlocked ∧ x.userStackBottom = y.userStackBottom ∧
      x.process = y.process ∧ x.nextPthread = y.nextPthread :=
  ⟨show x.body.nextBlocked = y.body.nextBlocked by rw [h],
    show x.body.userStackBottom = y.body.userStackBottom by rw [h],
    show x.body.process = y.body.process by rw [h],
    show x.body.nextPthread = y.body.nextPthread by rw [h]⟩

lemma state_of_unlinked (h : x.unlinked = y.unlinked) : x.state = y.state :=
  show x.unlinked.state = y.unlinked.state by rw [h]

@[simp] lemma modify_threads :
    (s.modify t f).threads u = if u = t then f (s.threads t) else s.threads u :=
  Function.update_apply _ _ _ _

@[simp] lemma modifyAt_threads :
    (s.modifyAt p f).threads u = if p = some u then f (s.threads u) else s.threads u := by
  cases p with
  | none => rfl
  | some t =>
    simp only [Scheduler.modifyAt, modify_threads, some.injEq]
    by_cases h : u = t
    · simp [h]
    · simp [h, Ne.symm h]

lemma modify_unlinked (hf : ∀ x, (f x).unlinked = x.unlinked) :
    ((s.modify t f).threads u).unlinked = (s.threads u).unlinked := by
  rw [modify_threads]
  split_ifs with h
  · rw [hf, h]
  · rfl

lemma modifyAt_unlinked (hf : ∀ x, (f x).unlinked = x.unlinked) :
    ((s.modifyAt p f).threads u).unlinked = (s.threads u).unlinked := by
  rw [modifyAt_threads]
  split_ifs
  · exact hf _
  · rfl

/-- Everything except the threads and the head of the ring. -/
def Scheduler.globals (s : Scheduler) : Scheduler :=
  { s with threads := fun _ => zeroThread, readyListHead := none }

lemma globals_eq (h : s'.globals = s.globals) :
    s'.live = s.live ∧ s'.currentThread = s.currentThread ∧ s'.deadListHead = s.deadListHead :=
  ⟨show s'.globals.live = s.globals.live by rw [h],
    show s'.globals.currentThread = s.globals.currentThread by rw [h],
    show s'.globals.deadListHead = s.globals.deadListHead by rw [h]⟩

@[simp] lemma modify_globals : (s.modify t f).globals = s.globals := rfl

@[simp] lemma modify_head : (s.modify t f).readyListHead = s.readyListHead := rfl

@[simp] lemma modifyAt_globals : (s.modifyAt p f).globals = s.globals := by cases p <;> rfl

@[simp] lemma modifyAt_head : (s.modifyAt p f).readyListHead = s.readyListHead := by cases p <;> rfl

lemma ReadyRing.congr {s' : Scheduler} (h : ReadyRing s l)
    (hhead : s'.readyListHead = s.readyListHead)
    (hnext : ∀ u ∈ l, (s'.threads u).next = (s.threads u).next)
    (hprev : ∀ u ∈ l, (s'.threads u).prev = (s.threads u).prev) : ReadyRing s' l :=
  ⟨hhead.trans h.head, h.ring.congr hnext hprev⟩

/-! ## Adding a thread -/

lemma enqueueThread_unlinked :
    ((enqueueThread s t).threads u).unlinked = (s.threads u).unlinked := by
  unfold enqueueThread
  cases s.readyListHead with
  | none =>
    rw [modify_unlinked fun _ => by rfl]
  | some a =>
    rw [modify_unlinked fun _ => by rfl, modify_unlinked fun _ => by rfl,
      modifyAt_unlinked fun _ => by rfl]

lemma enqueueThread_globals : (enqueueThread s t).globals = s.globals := by
  unfold enqueueThread
  cases s.readyListHead with
  | none => rfl
  | some a => simp only [modify_globals, modifyAt_globals]

lemma enqueueThread_head : (enqueueThread s t).readyListHead = s.readyListHead.or (some t) := by
  unfold enqueueThread
  cases h : s.readyListHead with
  | none => rfl
  | some a => simp [h]

lemma ReadyRing.enqueue (h : ReadyRing s l) (ht : t ∉ l) :
    ReadyRing (enqueueThread s t) (l ++ [t]) := by
  cases l with
  | nil =>
    have hnone : s.readyListHead = none := h.head
    refine ⟨by simp [enqueueThread_head, hnone], ?_⟩
    apply ring_singleton <;> simp [enqueueThread, hnone, Scheduler.next, Scheduler.prev]
  | cons a l =>
    have hsome : s.readyListHead = some a := h.head
    obtain ⟨z, hz⟩ := ne_none_iff_exists'.mp (show (a :: l).getLast? ≠ none by simp)
    have hpa : (s.threads a).prev = some z := h.ring.prev_head.trans hz
    have hta : t ≠ a := fun he => ht (he ▸ mem_cons_self)
    refine ⟨by simp [enqueueThread_head, hsome], h.ring.snoc ht ?_ ?_ ?_ ?_⟩
    · simp [enqueueThread, hsome, Scheduler.next, hta]
    · simp [enqueueThread, hsome, Scheduler.prev, hta]
    · intro b hb
      have hbt : b ≠ t := fun he => ht (he ▸ hb)
      simp only [enqueueThread, hsome, Scheduler.next, Scheduler.prev, modify_threads,
        modifyAt_threads, hbt, if_false, hpa]
      split_ifs <;> simp_all
    · intro b hb
      have hbt : b ≠ t := fun he => ht (he ▸ hb)
      simp only [enqueueThread, hsome, Scheduler.prev, modify_threads, modifyAt_threads, hbt,
        if_false]
      split_ifs <;> simp_all

lemma ReadyRing.enqueue_other (h : ReadyRing s l) (hu : u ∉ l) (hut : u ≠ t) :
    (enqueueThread s t).threads u = s.threads u := by
  cases l with
  | nil =>
    have hnone : s.readyListHead = none := h.head
    simp [enqueueThread, hnone, hut]
  | cons a l =>
    have hsome : s.readyListHead = some a := h.head
    have hua : u ≠ a := fun he => hu (he ▸ mem_cons_self)
    have hpa : (s.threads a).prev ≠ some u := by
      intro he
      exact hu (mem_of_getLast? (h.ring.prev_head.symm.trans he))
    simp [enqueueThread, hsome, hut, hua, hpa]

/-- A thread outside the ring `l` becomes ready and enters the ring. -/
structure Woken (s s' : Scheduler) (l : List Nat) (t : Nat) : Prop where
  ring : ReadyRing s' (l ++ [t])
  state : ∀ u, (s'.threads u).state = if u = t then .ready else (s.threads u).state
  outside : ∀ u ∉ l, u ≠ t → s'.threads u = s.threads u
  body : ∀ u, u ≠ t → (s'.threads u).body = (s.threads u).body

lemma Woken.nextBlocked (h : Woken s s' l t) (u : Nat) (hu : u ≠ t) :
    (s'.threads u).nextBlocked = (s.threads u).nextBlocked := (fields_of_body (h.body u hu)).1

/-- `enqueue_thread` after the record of the thread was written. -/
lemma ReadyRing.enter (h : ReadyRing s l) (ht : t ∉ l) {a : Scheduler}
    (ha : ∀ u, u ≠ t → a.threads u = s.threads u) (hready : (a.threads t).state = .ready)
    (hhead : a.readyListHead = s.readyListHead) : Woken s (enqueueThread a t) l t := by
  have hne : ∀ {u}, u ∈ l → u ≠ t := fun hu he => ht (he ▸ hu)
  have hr : ReadyRing a l :=
    h.congr hhead (fun u hu => by rw [ha u (hne hu)]) (fun u hu => by rw [ha u (hne hu)])
  have hun : ∀ u, ((enqueueThread a t).threads u).unlinked = (a.threads u).unlinked :=
    fun u => enqueueThread_unlinked
  refine ⟨hr.enqueue ht, ?_, ?_, ?_⟩
  · intro u
    rw [state_of_unlinked (hun u)]
    split_ifs with hu
    · rw [hu, hready]
    · rw [ha u hu]
  · intro u hu hut
    rw [hr.enqueue_other hu hut, ha u hut]
  · intro u hut
    rw [body_of_unlinked (hun u), ha u hut]

lemma createThread_woken (h : ReadyRing s l) (ht : t ∉ l) (stack size : Nat) :
    Woken s (createThread s t stack size) l t :=
  h.enter ht (a := { s.modify t fun _ => { zeroThread with
      kernelStackBottom := some stack
      kernelStackTop := stack + size
      rsp := (stack + size) / 16 * 16 - 8 * 21 } with live := t :: s.live })
    (fun u hu => by simp [hu]) (by simp [zeroThread]) rfl

lemma createThread_spec (h : ReadyRing s l) (hl : ∀ u ∈ l, u ∈ s.live) (ht : t ∉ s.live)
    (stack size : Nat) :
    Woken s (createThread s t stack size) l t ∧ (createThread s t stack size).live = t :: s.live ∧
      (createThread s t stack size).currentThread = s.currentThread ∧
      (createThread s t stack size).deadListHead = s.deadListHead := by
  exact ⟨createThread_woken h (fun hm => ht (hl t hm)) stack size, globals_eq enqueueThread_globals⟩

lemma createThread_process {stack size : Nat} :
    ((createThread s t stack size).threads t).process = none := by
  refine (fields_of_body (body_of_unlinked enqueueThread_unlinked)).2.2.1.trans ?_
  simp [zeroThread]

/-! ## Removing a thread -/

lemma dequeueThread_unlinked :
    ((dequeueThread s t).threads u).unlinked = (s.threads u).unlinked := by
  unfold dequeueThread
  dsimp only
  rw [modify_unlinked fun _ => by rfl]
  split_ifs
  · rfl
  · rw [modifyAt_unlinked fun _ => by rfl, modifyAt_unlinked fun _ => by rfl]
  · rw [modifyAt_unlinked fun _ => by rfl, modifyAt_unlinked fun _ => by rfl]

lemma dequeueThread_globals : (dequeueThread s t).globals = s.globals := by
  refine modify_globals.trans ?_
  dsimp only
  split_ifs
  · rfl
  · exact modifyAt_globals.trans modifyAt_globals
  · exact modifyAt_globals.trans modifyAt_globals

lemma dequeueThread_self :
    ((dequeueThread s t).threads t).prev = none ∧ ((dequeueThread s t).threads t).next = none := by
  unfold dequeueThread
  simp

/-- The writes of `dequeue_thread` to a thread of a circle of two or more. -/
lemma dequeueThread_threads (hn : (s.threads t).next ≠ some t) (hp : (s.threads t).prev ≠ some t)
    (hu : u ≠ t) : ((dequeueThread s t).threads u).next =
        (if (s.threads t).prev = some u then (s.threads t).next else (s.threads u).next) ∧
      ((dequeueThread s t).threads u).prev =
        (if (s.threads t).next = some u then (s.threads t).prev else (s.threads u).prev) := by
  unfold dequeueThread
  simp only [modify_threads, modifyAt_threads, hn, hp, hu, if_false, modifyAt_head]
  split_ifs <;> simp_all

lemma dequeueThread_head (hn : (s.threads t).next ≠ some t) (hp : (s.threads t).prev ≠ some t) :
    (dequeueThread s t).readyListHead =
      if s.readyListHead = some t then (s.threads t).next else s.readyListHead := by
  unfold dequeueThread
  split_ifs <;> simp_all

lemma ReadyRing.dequeue (h : ReadyRing s l) (ht : t ∈ l) :
    ReadyRing (dequeueThread s t) (l.erase t) := by
  obtain ⟨b, hb, hnext, hbt⟩ := h.ring.next_mem ht
  by_cases hone : l = [t]
  · subst hone
    obtain rfl : b = t := hbt.mpr rfl
    have hself : (s.threads b).next = some b := hnext
    refine ⟨by simp [dequeueThread, hself], ?_⟩
    rw [erase_cons_head]
    exact ring_nil
  · have hn : (s.threads t).next ≠ some t := by
      intro he
      exact hone (hbt.mp (some.inj (hnext.symm.trans he)))
    have hp : (s.threads t).prev ≠ some t := by
      obtain ⟨z, -, hz, hzt⟩ := h.ring.prev_mem ht
      intro he
      exact hone (hzt.mp (some.inj (hz.symm.trans he)))
    refine ⟨?_, h.ring.erase ht hone (fun u _ hu => (dequeueThread_threads hn hp hu).1)
      (fun u _ hu => (dequeueThread_threads hn hp hu).2)⟩
    rw [dequeueThread_head hn hp, h.head]
    cases l with
    | nil => simp at ht
    | cons a l =>
      by_cases hat : a = t
      · subst hat
        cases l with
        | nil => exact absurd rfl hone
        | cons b' l =>
          have := h.ring.next_head
          simpa [Scheduler.next] using this
      · simp [hat, erase_cons_tail]

lemma ReadyRing.dequeue_other (h : ReadyRing s l) (ht : t ∈ l) (hu : u ∉ l) :
    (dequeueThread s t).threads u = s.threads u := by
  obtain ⟨b, hb, hn, -⟩ := h.ring.next_mem ht
  obtain ⟨z, hz, hp, -⟩ := h.ring.prev_mem ht
  have hut : u ≠ t := fun he => hu (he ▸ ht)
  have hun : (s.threads t).next ≠ some u := fun he =>
    hu (some.inj (hn.symm.trans he) ▸ hb)
  have hup : (s.threads t).prev ≠ some u := fun he =>
    hu (some.inj (hp.symm.trans he) ▸ hz)
  unfold dequeueThread
  simp only [modify_threads, hut, if_false]
  split_ifs
  · rfl
  all_goals
    simp only [modifyAt_threads, hup, if_false]
    split_ifs <;> simp_all

end DestinX.Sched
