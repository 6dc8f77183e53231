import DestinX.Pmm.Contiguous
import DestinX.Base.Runs

/-!
# The physical memory manager under preemption

Each test and each change of a byte of the bitmap is one step, and between two steps of a thread
the others may run. Only `pmm_alloc_page` disables interrupts and is one step as a whole.
`pmm_alloc_pages` sets the bits of a run one after the other, long after it has tested them.
-/

namespace DestinX.Pmm

open Base Function List Bool

/-- Where a thread is. With the page count and the first page of the run, `inner` and
`mark` have the `j` of the two inner loops. At `clear`, `pmm_free_page` has tested the
bit. -/
inductive Pc where
  | idle
  | outer (count i : Nat)
  | inner (count i j : Nat)
  | mark (count i j : Nat)
  | clear (page : Nat)
  deriving DecidableEq, Repr

/-- The bitmap, the threads, and the threads that each page has been handed to. -/
structure PmmState where
  bitmap : Bitmap
  pc : Nat → Pc
  owners : Nat → List Nat

def PmmState.goto (st : PmmState) (t : Nat) (pc : Pc) : PmmState :=
  { st with pc := update st.pc t pc }

/-- Set the bit of the page for thread `t`. -/
def PmmState.hand (st : PmmState) (t p : Nat) : PmmState :=
  { st with
    bitmap := bitmapSet st.bitmap p
    owners := update st.owners p (t :: st.owners p) }

/-- Clear it. -/
def PmmState.release (st : PmmState) (t p : Nat) : PmmState :=
  { st with
    bitmap := bitmapClr st.bitmap p
    owners := update st.owners p ((st.owners p).erase t) }

/-- Behind page `i + j - 1`, which is clear. -/
def nextTest (count i j : Nat) : Pc := if j < count then .inner count i j else .mark count i 0

/-- The next step of a call. -/
def PmmState.advance (total t : Nat) (st : PmmState) : PmmState :=
  match st.pc t with
  | .idle => st
  | .outer count i =>
    if total < i ∨ 2 ^ 31 ≤ i then st.goto t .idle
    else if bitmapTest st.bitmap i then st.goto t (.outer count (i + 1))
    else st.goto t (nextTest count i 1)
  | .inner count i j =>
    if bitmapTest st.bitmap (i + j) then st.goto t (.outer count (i + j + 1))
    else st.goto t (nextTest count i (j + 1))
  | .mark count i j =>
    (st.hand t (i + j)).goto t (if j + 1 < count then .mark count i (j + 1) else .idle)
  | .clear p => (st.release t p).goto t .idle

/-- `pmm_alloc_page` -/
def PmmState.allocPage (total t : Nat) (st : PmmState) : PmmState :=
  match firstClear st.bitmap total with
  | some i => st.hand t i
  | none => st

/-- The beginning of `pmm_alloc_pages`. -/
def PmmState.callPages (total t count : Nat) (st : PmmState) : PmmState :=
  if count = 0 ∨ total < count then st else st.goto t (.outer count 0)

/-- The beginning of `pmm_free_page`, for the address of the page. -/
def PmmState.callFree (total t p : Nat) (st : PmmState) : PmmState :=
  if p = 0 ∨ total ≤ p then st
  else if bitmapTest st.bitmap p then st.goto t (.clear p)
  else st

inductive PmmAction where
  | allocPage (t : Nat)
  | allocPages (t count : Nat)
  | freePage (t p : Nat)
  | advance (t : Nat)

/-- One step. A thread frees only pages that it owns. -/
inductive PmmStep (total : Nat) : PmmState → PmmAction → PmmState → Prop
  | allocPage {st : PmmState} {t : Nat} (hidle : st.pc t = .idle) :
      PmmStep total st (.allocPage t) (st.allocPage total t)
  | allocPages {st : PmmState} {t count : Nat} (hidle : st.pc t = .idle) :
      PmmStep total st (.allocPages t count) (st.callPages total t count)
  | freePage {st : PmmState} {t p : Nat} (hidle : st.pc t = .idle) (hown : t ∈ st.owners p) :
      PmmStep total st (.freePage t p) (st.callFree total t p)
  | advance {st : PmmState} {t : Nat} (hbusy : st.pc t ≠ .idle) :
      PmmStep total st (.advance t) (st.advance total t)

/-- Any bitmap, with no page handed out yet. -/
def pmmMachine (total : Nat) : Machine PmmState PmmAction where
  start st := (∀ t, st.pc t = .idle) ∧ ∀ p, st.owners p = []
  step := PmmStep total

/-- No page has been handed out twice, and those that have been are marked. -/
def HandedOnce (st : PmmState) : Prop :=
  ∀ p, (st.owners p).length ≤ 1 ∧ (st.owners p ≠ [] → bitmapTest st.bitmap p = true)

/-- When `pmm_alloc_pages` sets a bit, the bit is still clear. -/
def StillClear (st : PmmState) : PmmAction → Prop
  | .advance t => ∀ count i j, st.pc t = .mark count i j → bitmapTest st.bitmap (i + j) = false
  | _ => True

variable {st : PmmState} {total t p q count i j : Nat} {pc : Pc}

/-! ## What the steps change -/

@[simp] lemma goto_bitmap (st : PmmState) (t : Nat) (pc : Pc) : (st.goto t pc).bitmap = st.bitmap :=
  rfl

@[simp] lemma goto_owners (st : PmmState) (t : Nat) (pc : Pc) : (st.goto t pc).owners = st.owners :=
  rfl

lemma hand_owners_self (st : PmmState) (t p : Nat) : (st.hand t p).owners p = t :: st.owners p :=
  update_self _ _ _

lemma hand_owners_of_ne (hne : q ≠ p) : (st.hand t p).owners q = st.owners q :=
  update_of_ne hne _ _

lemma release_owners_self (st : PmmState) (t p : Nat) :
    (st.release t p).owners p = (st.owners p).erase t :=
  update_self _ _ _

lemma release_owners_of_ne (hne : q ≠ p) : (st.release t p).owners q = st.owners q :=
  update_of_ne hne _ _

lemma hand_test (st : PmmState) (t p q : Nat) :
    bitmapTest (st.hand t p).bitmap q = (decide (q = p) || bitmapTest st.bitmap q) :=
  bitmapTest_set st.bitmap p q

lemma release_test (st : PmmState) (t p q : Nat) :
    bitmapTest (st.release t p).bitmap q = (!decide (q = p) && bitmapTest st.bitmap q) :=
  bitmapTest_clr st.bitmap p q

lemma HandedOnce.hand (h : HandedOnce st) (hclear : bitmapTest st.bitmap p = false) (t : Nat) :
    HandedOnce (st.hand t p) := by
  have hnone : st.owners p = [] := by
    by_contra hne
    rw [(h p).2 hne] at hclear
    cases hclear
  intro q
  rw [hand_test]
  by_cases hq : q = p
  · subst hq
    rw [hand_owners_self, hnone]
    simp
  · rw [hand_owners_of_ne hq]
    simpa [hq] using h q

lemma HandedOnce.release (h : HandedOnce st) (hown : t ∈ st.owners p) :
    HandedOnce (st.release t p) := by
  intro q
  rw [release_test]
  by_cases hq : q = p
  · subst hq
    have hlen := length_erase_of_mem hown
    have hone := (h q).1
    have hnil : (st.owners q).erase t = [] := eq_nil_of_length_eq_zero (by omega)
    rw [release_owners_self, hnil]
    simp
  · rw [release_owners_of_ne hq]
    simpa [hq] using h q

/-- The page was handed to another thread before: now it is owned twice. -/
lemma not_handedOnce_hand (hown : st.owners p ≠ []) (t : Nat) : ¬ HandedOnce (st.hand t p) := by
  intro h
  have hlen := (h p).1
  rw [hand_owners_self, length_cons] at hlen
  exact hown (eq_nil_of_length_eq_zero (by omega))

/-! ## Pages that a call has found clear -/

/-- The pages that the call has tested and that it still relies on. -/
def Pc.Relies : Pc → Nat → Prop
  | .inner _ i j, p => i ≤ p ∧ p < i + j
  | .mark count i j, p => i + j ≤ p ∧ p < i + count
  | _, _ => False

/-- If the page is marked, it has been handed out. -/
def Accounted (st : PmmState) (p : Nat) : Prop := bitmapTest st.bitmap p = true → st.owners p ≠ []

lemma Accounted.hand (h : Accounted st q) (t p : Nat) : Accounted (st.hand t p) q := by
  intro hset
  by_cases hq : q = p
  · subst hq
    rw [hand_owners_self]
    exact cons_ne_nil _ _
  · rw [hand_owners_of_ne hq]
    apply h
    simpa [hand_test, hq] using hset

lemma Accounted.release (h : Accounted st q) (t p : Nat) : Accounted (st.release t p) q := by
  intro hset
  rw [release_test] at hset
  by_cases hq : q = p
  · simp [hq] at hset
  · rw [release_owners_of_ne hq]
    apply h
    simpa [hq] using hset

lemma accounted_of_clear (h : bitmapTest st.bitmap p = false) : Accounted st p := by
  intro hset
  rw [h] at hset
  cases hset

/-- The loops are within their bounds. -/
def Pc.InBounds : Pc → Prop
  | .outer count _ => 0 < count
  | .inner count _ j => j < count
  | .mark count _ j => j < count
  | _ => True

/-- What holds along every run whose steps find the bits still clear. -/
structure PmmInv (st : PmmState) : Prop where
  once : HandedOnce st
  relies : ∀ t p, (st.pc t).Relies p → Accounted st p
  bounds : ∀ t, (st.pc t).InBounds
  frees : ∀ t p, st.pc t = .clear p → t ∈ st.owners p

section

variable (h : PmmInv st)
include h

/-- A thread goes on without a change to the bitmap. It relies on a page that it did
not rely on before only when it has just found it clear. -/
lemma PmmInv.goto
    (hrelies : ∀ p, pc.Relies p → (st.pc t).Relies p ∨ bitmapTest st.bitmap p = false)
    (hbounds : pc.InBounds) (hfrees : ∀ p, pc = .clear p → t ∈ st.owners p) :
    PmmInv (st.goto t pc) := by
  have hpc : ∀ t', (st.goto t pc).pc t' = if t' = t then pc else st.pc t' := fun t' =>
    update_apply st.pc t pc t'
  refine ⟨h.once, fun t' p hp => ?_, fun t' => ?_, fun t' p hp => ?_⟩
  · rw [hpc] at hp
    split_ifs at hp with ht
    · rcases hrelies p hp with hold | hclear
      · exact h.relies t p hold
      · exact accounted_of_clear hclear
    · exact h.relies t' p hp
  · rw [hpc]
    split_ifs with ht
    · exact hbounds
    · exact h.bounds t'
  · rw [hpc] at hp
    split_ifs at hp with ht
    · rw [ht]
      exact hfrees p hp
    · exact h.frees t' p hp

lemma PmmInv.idle (t : Nat) : PmmInv (st.goto t .idle) :=
  h.goto (fun _ hp => hp.elim) trivial (fun _ hp => Pc.noConfusion hp)

lemma PmmInv.outer (hc : 0 < count) (t i : Nat) : PmmInv (st.goto t (.outer count i)) :=
  h.goto (fun _ hp => hp.elim) hc (fun _ hp => Pc.noConfusion hp)

lemma PmmInv.nextTest (hc : 0 < count)
    (hrelies : ∀ p, i ≤ p → p < i + j → (st.pc t).Relies p ∨ bitmapTest st.bitmap p = false) :
    PmmInv (st.goto t (nextTest count i j)) := by
  rw [Pmm.nextTest]
  split_ifs with hlt
  · exact h.goto (fun p hp => hrelies p hp.1 hp.2) hlt (fun _ hp => Pc.noConfusion hp)
  · refine h.goto (fun p hp => ?_) hc (fun _ hp => Pc.noConfusion hp)
    simp only [Pc.Relies] at hp
    exact hrelies p (by omega) (by omega)

lemma PmmInv.hand (hclear : bitmapTest st.bitmap p = false) (t : Nat) : PmmInv (st.hand t p) := by
  refine ⟨h.once.hand hclear t, fun t' q hq => (h.relies t' q hq).hand t p, h.bounds,
    fun t' q hq => ?_⟩
  by_cases hqp : q = p
  · subst hqp
    rw [hand_owners_self]
    exact mem_cons_of_mem t (h.frees t' q hq)
  · rw [hand_owners_of_ne hqp]
    exact h.frees t' q hq

lemma PmmInv.release (hpc : st.pc t = .clear p) : PmmInv ((st.release t p).goto t .idle) := by
  have hown := h.frees t p hpc
  have hpc' : ∀ t', ((st.release t p).goto t .idle).pc t' = if t' = t then .idle else st.pc t' :=
    fun t' => update_apply st.pc t .idle t'
  refine ⟨h.once.release hown, fun t' q hq => ?_, fun t' => ?_, fun t' q hq => ?_⟩
  · rw [hpc'] at hq
    split_ifs at hq with ht
    · exact hq.elim
    · exact (h.relies t' q hq).release t p
  · rw [hpc']
    split_ifs with ht
    · exact trivial
    · exact h.bounds t'
  · rw [hpc'] at hq
    split_ifs at hq with ht
    have hown' := h.frees t' q hq
    have hqp : q ≠ p := by
      -- the page has one owner, which is `t`
      rintro rfl
      obtain ⟨a, ha⟩ := length_eq_one_iff.mp (le_antisymm (h.once q).1 (length_pos_of_mem hown))
      rw [ha, mem_singleton] at hown hown'
      exact ht (hown'.trans hown.symm)
    rw [goto_owners, release_owners_of_ne hqp]
    exact hown'

/-! ## One step -/

lemma PmmInv.allocPage (total t : Nat) : PmmInv (st.allocPage total t) := by
  rw [PmmState.allocPage]
  cases hfirst : firstClear st.bitmap total with
  | none => exact h
  | some i =>
    have hclear := find?_some hfirst
    exact h.hand (by simpa using hclear) t

lemma PmmInv.callPages (total t count : Nat) : PmmInv (st.callPages total t count) := by
  rw [PmmState.callPages]
  split_ifs with hnone
  · exact h
  · exact h.outer (by omega) t 0

lemma PmmInv.callFree (hown : t ∈ st.owners p) (total : Nat) :
    PmmInv (st.callFree total t p) := by
  rw [PmmState.callFree]
  split_ifs with hbad hset
  · exact h
  · refine h.goto (fun _ hp => hp.elim) trivial fun q hq => ?_
    cases hq
    exact hown
  · exact h

lemma PmmInv.advance (total : Nat) (hgood : StillClear st (.advance t)) :
    PmmInv (st.advance total t) := by
  have hbounds := h.bounds t
  rw [PmmState.advance]
  cases hpc : st.pc t with
  | idle => exact h
  | outer count i =>
    rw [hpc] at hbounds
    simp only []
    split_ifs with hend hset
    · exact h.idle t
    · exact h.outer hbounds t (i + 1)
    · refine h.nextTest hbounds fun p hp hp' => .inr ?_
      obtain rfl : p = i := by omega
      exact eq_false_of_not_eq_true hset
  | inner count i j =>
    rw [hpc] at hbounds
    have hc : 0 < count := lt_of_le_of_lt (Nat.zero_le j) hbounds
    simp only []
    split_ifs with hset
    · exact h.outer hc t (i + j + 1)
    · refine h.nextTest hc fun p hp hp' => ?_
      by_cases hlast : p = i + j
      · rw [hlast]
        exact .inr (eq_false_of_not_eq_true hset)
      · rw [hpc]
        exact .inl ⟨hp, by omega⟩
  | mark count i j =>
    have hhand := h.hand (hgood count i j hpc) t
    simp only []
    split_ifs with hlt
    · refine hhand.goto (fun p hp => .inl ?_) hlt (fun _ hp => Pc.noConfusion hp)
      rw [show (st.hand t (i + j)).pc t = st.pc t from rfl, hpc]
      simp only [Pc.Relies] at hp ⊢
      omega
    · exact hhand.idle t
  | clear p => exact h.release hpc

lemma PmmInv.step {st' : PmmState} {a : PmmAction} (hgood : StillClear st a)
    (hstep : PmmStep total st a st') : PmmInv st' := by
  cases hstep with
  | allocPage _ => exact h.allocPage total _
  | allocPages _ => exact h.callPages total _ _
  | freePage _ hown => exact h.callFree hown total
  | advance _ => exact h.advance total hgood

end

lemma PmmInv.start (h : (pmmMachine total).start st) : PmmInv st := by
  obtain ⟨hidle, hnone⟩ := h
  refine ⟨fun p => ?_, fun t p hp => ?_, fun t => ?_, fun t p hp => ?_⟩
  · rw [hnone]
    simp
  · rw [hidle] at hp
    exact hp.elim
  · rw [hidle]
    exact trivial
  · rw [hidle] at hp
    exact Pc.noConfusion hp

/-- A bit that is no longer clear has been set for another caller. -/
lemma PmmInv.not_handedOnce {st' : PmmState} {a : PmmAction} (h : PmmInv st)
    (hstep : PmmStep total st a st') (hbad : ¬ StillClear st a) : ¬ HandedOnce st' := by
  cases hstep with
  | allocPage _ => exact absurd trivial hbad
  | allocPages _ => exact absurd trivial hbad
  | freePage _ _ => exact absurd trivial hbad
  | @advance t _ =>
    simp only [StillClear, not_forall] at hbad
    obtain ⟨count, i, j, hpc, hset⟩ := hbad
    have hj := h.bounds t
    rw [hpc] at hj
    have hrelies : (st.pc t).Relies (i + j) := by
      rw [hpc]
      exact ⟨le_rfl, Nat.add_lt_add_left hj i⟩
    have hown := h.relies t (i + j) hrelies (eq_true_of_not_eq_false hset)
    rw [PmmState.advance, hpc]
    exact not_handedOnce_hand hown t

/-- As long as `pmm_alloc_pages` finds the bits that it sets still clear, no page is
handed out twice and every page that was handed out is marked, whatever the threads do
and wherever they are preempted. The first step that finds a bit set hands out a page
a second time. -/
theorem pmm_handed_once_iff (run : (pmmMachine total).Reached StillClear st) :
    (pmmMachine total).SafeExactlyWhen HandedOnce StillClear st :=
  run.safeExactlyWhen (fun _ h => PmmInv.start h) (fun _ _ _ h hgood hstep => h.step hgood hstep)
    (fun _ h => h.once) (fun _ _ _ h hstep hbad => h.not_handedOnce hstep hbad)

/-- Two pages, of which the first is in use. -/
def twoPages : PmmState := ⟨fun k => if k = 0 then 1 else 0, fun _ => .idle, fun _ => []⟩

/-- Thread 0 calls `pmm_alloc_pages` for one page and tests both bits. -/
def aboutToMark : PmmState :=
  ((twoPages.callPages 2 0 1).advance 2 0).advance 2 0

lemma aboutToMark_pc : aboutToMark.pc 0 = .mark 1 1 0 ∧ aboutToMark.pc 1 = .idle := by decide

lemma aboutToMark_reached : (pmmMachine 2).Reached StillClear aboutToMark := by
  have hfirst : (twoPages.callPages 2 0 1).pc 0 = .outer 1 0 := by decide
  have hsecond : ((twoPages.callPages 2 0 1).advance 2 0).pc 0 = .outer 1 1 := by decide
  have h0 : (pmmMachine 2).Reached StillClear twoPages := .start ⟨fun _ => rfl, fun _ => rfl⟩
  have h1 : (pmmMachine 2).Reached StillClear (twoPages.callPages 2 0 1) :=
    .step h0 (show StillClear twoPages (.allocPages 0 1) from trivial) (.allocPages rfl)
  have h2 : (pmmMachine 2).Reached StillClear ((twoPages.callPages 2 0 1).advance 2 0) := by
    refine .step h1 ?_ (show PmmStep 2 _ (.advance 0) _ from .advance (by rw [hfirst]; decide))
    intro count i j hpc
    cases hpc
  refine .step h2 ?_ (show PmmStep 2 _ (.advance 0) _ from .advance (by rw [hsecond]; decide))
  intro count i j hpc
  cases hpc

theorem pmm_handed_once_aboutToMark :
    (pmmMachine 2).SafeExactlyWhen HandedOnce StillClear aboutToMark :=
  pmm_handed_once_iff aboutToMark_reached

/-- Here thread 1 calls `pmm_alloc_page`, and thread 0 goes on afterwards. Both calls
return the same page. -/
theorem pmm_hands_out_twice : PmmStep 2 aboutToMark (.allocPage 1) (aboutToMark.allocPage 2 1) ∧
      PmmStep 2 (aboutToMark.allocPage 2 1) (.advance 0) ((aboutToMark.allocPage 2 1).advance 2 0) ∧
      (∀ t < 2, ((aboutToMark.allocPage 2 1).advance 2 0).pc t = .idle) ∧
      ((aboutToMark.allocPage 2 1).advance 2 0).owners 1 = [0, 1] ∧
      ¬ HandedOnce ((aboutToMark.allocPage 2 1).advance 2 0) := by
  have howners : ((aboutToMark.allocPage 2 1).advance 2 0).owners 1 = [0, 1] := by decide
  refine ⟨.allocPage aboutToMark_pc.2, .advance (by decide), by decide, howners, fun h => ?_⟩
  have := (h 1).1
  exact absurd this (by decide)

/-! ## A call that is not interrupted -/

/-- Thread `t` gets from one state to the other without the others running. -/
def Alone (total t : Nat) (st st' : PmmState) : Prop := ∃ n, (PmmState.advance total t)^[n] st = st'

lemma Alone.refl (total t : Nat) (st : PmmState) : Alone total t st st := ⟨0, rfl⟩

lemma Alone.head {st' : PmmState} (h : Alone total t (st.advance total t) st') :
    Alone total t st st' := by
  obtain ⟨n, hn⟩ := h
  exact ⟨n + 1, hn⟩

lemma goto_pc_self (st : PmmState) (t : Nat) (pc : Pc) : (st.goto t pc).pc t = pc :=
  update_self _ _ _

@[simp] lemma goto_goto (st : PmmState) (t : Nat) (pc pc' : Pc) :
    (st.goto t pc).goto t pc' = st.goto t pc' := by simp [PmmState.goto]

lemma advance_outer (total t count i : Nat) (st : PmmState) (hi : i ≤ total) (hint : i < 2 ^ 31) :
    (st.goto t (.outer count i)).advance total t =
      if bitmapTest st.bitmap i then st.goto t (.outer count (i + 1))
      else st.goto t (nextTest count i 1) := by
  have hend : ¬ (total < i ∨ 2 ^ 31 ≤ i) := by omega
  rw [PmmState.advance, goto_pc_self]
  simp only [if_neg hend, goto_bitmap, goto_goto]

lemma advance_inner (total t count i j : Nat) (st : PmmState) :
    (st.goto t (.inner count i j)).advance total t =
      if bitmapTest st.bitmap (i + j) then st.goto t (.outer count (i + j + 1))
      else st.goto t (nextTest count i (j + 1)) := by
  rw [PmmState.advance, goto_pc_self]
  simp only [goto_bitmap, goto_goto]

lemma advance_mark (total t count i j : Nat) (st : PmmState) :
    (st.goto t (.mark count i j)).advance total t =
      (st.hand t (i + j)).goto t (if j + 1 < count then .mark count i (j + 1) else .idle) := by
  rw [PmmState.advance, goto_pc_self]
  simp only [PmmState.hand, PmmState.goto, update_idem]

/-- The inner loop passes over clear bits. -/
lemma alone_clear {total t d : Nat} {st st' : PmmState} (hd : j + d ≤ count)
    (hclear : Clear st.bitmap (i + j) d)
    (h : Alone total t (st.goto t (nextTest count i (j + d))) st') :
    Alone total t (st.goto t (nextTest count i j)) st' := by
  induction d generalizing j with
  | zero => exact h
  | succ d ih =>
    have hfirst := hclear (i + j) le_rfl (by omega)
    rw [nextTest, if_pos (by omega)]
    apply Alone.head
    rw [advance_inner, hfirst]
    apply ih (by omega) (fun p hp hp' => hclear p (by omega) (by omega))
    rwa [show j + 1 + d = j + (d + 1) by omega]

lemma alone_blocked (total t : Nat) (st : PmmState) (hset : bitmapTest st.bitmap q = true)
    (hj : i + j ≤ q) (hq : q < i + count) (hclear : Clear st.bitmap (i + j) (q - (i + j))) :
    Alone total t (st.goto t (nextTest count i j)) (st.goto t (.outer count (q + 1))) := by
  apply alone_clear (by omega) hclear
  have hat : i + (j + (q - (i + j))) = q := by omega
  rw [nextTest, if_pos (by omega)]
  apply Alone.head
  rw [advance_inner, hat, if_pos hset]
  exact Alone.refl _ _ _

lemma alone_unblocked (total t : Nat) (st : PmmState) (hj : j ≤ count)
    (hclear : Clear st.bitmap (i + j) (count - j)) :
    Alone total t (st.goto t (nextTest count i j)) (st.goto t (.mark count i 0)) := by
  apply alone_clear (by omega) hclear
  rw [nextTest, if_neg (by omega)]
  exact Alone.refl _ _ _

lemma alone_mark (total t : Nat) (st : PmmState) (hj : j < count) :
    ∃ st', Alone total t (st.goto t (.mark count i j)) st' ∧ st'.pc t = .idle ∧
      ∀ p, bitmapTest st'.bitmap p =
        (bitmapTest st.bitmap p || decide (i + j ≤ p ∧ p < i + count)) := by
  obtain ⟨d, hd⟩ : ∃ d, count = j + 1 + d := ⟨count - (j + 1), by omega⟩
  induction d generalizing st j with
  | zero =>
    refine ⟨(st.goto t (.mark count i j)).advance total t, Alone.head (Alone.refl _ _ _), ?_, ?_⟩
    · rw [advance_mark, goto_pc_self, if_neg (by omega)]
    · intro p
      rw [advance_mark, goto_bitmap, hand_test, Bool.or_comm]
      congr 1
      rw [decide_eq_decide]
      omega
  | succ d ih =>
    obtain ⟨st', hrun, hidle, hbits⟩ := ih (j := j + 1) (st.hand t (i + j)) (by omega) (by omega)
    refine ⟨st', Alone.head ?_, hidle, fun p => ?_⟩
    · rw [advance_mark, if_pos (by omega)]
      exact hrun
    · rw [hbits, hand_test, Bool.or_comm (decide (p = i + j)), Bool.or_assoc, ← decide_or]
      congr 1
      rw [decide_eq_decide]
      omega

lemma alone_scan (total t : Nat) (st : PmmState) (hc : 1 ≤ count) (i : Nat) :
    ∃ st', Alone total t (st.goto t (.outer count i)) st' ∧ st'.pc t = .idle ∧
      st'.bitmap = match (scan st.bitmap total count i).found with
        | some a => setRun st.bitmap a count
        | none => st.bitmap := by
  apply scan_induct hc (m := st.bitmap) (i := i) (motive := fun i s =>
    ∃ st', Alone total t (st.goto t (.outer count i)) st' ∧ st'.pc t = .idle ∧
      st'.bitmap = match s.found with
        | some a => setRun st.bitmap a count
        | none => st.bitmap)
  · intro i hend
    refine ⟨st.goto t .idle, Alone.head ?_, goto_pc_self _ _ _, rfl⟩
    rw [PmmState.advance, goto_pc_self]
    simp only [if_pos hend, goto_goto]
    exact Alone.refl _ _ _
  · rintro i q s hi hint hq hlt hclear hset ⟨st', ⟨n, hn⟩, hidle, hbitmap⟩
    refine ⟨st', Alone.head ?_, hidle, hbitmap⟩
    rw [advance_outer total t count i st hi hint]
    by_cases hqi : q = i
    · subst hqi
      rw [if_pos hset]
      exact ⟨n, hn⟩
    · have hfirst := hclear i le_rfl (by omega)
      rw [hfirst, if_neg Bool.false_ne_true]
      obtain ⟨k, hk⟩ := alone_blocked total t st (j := 1) hset (by omega) hlt
        (fun p hp hp' => hclear p (by omega) (by omega))
      exact ⟨n + k, by rw [Function.iterate_add_apply, hk, hn]⟩
  · intro i hi hint hclear
    have hfirst := hclear i le_rfl (by omega)
    obtain ⟨k, hk⟩ := alone_unblocked total t st (i := i) (j := 1) hc
      (fun p hp hp' => hclear p (by omega) (by omega))
    obtain ⟨st', ⟨n, hn⟩, hidle, hbits⟩ := alone_mark total t st (i := i) (j := 0) hc
    refine ⟨st', Alone.head ?_, hidle, bitmap_ext fun p => ?_⟩
    · rw [advance_outer total t count i st hi hint, hfirst, if_neg Bool.false_ne_true]
      exact ⟨n + k, by rw [Function.iterate_add_apply, hk, hn]⟩
    · rw [hbits, bitmapTest_setRun, Nat.add_zero]

/-- A call of `pmm_alloc_pages` that is not interrupted leaves the bitmap of the
function. -/
theorem uninterrupted_alloc_pages (total count : Nat) (hidle : st.pc t = .idle) :
    ∃ st', Alone total t (st.callPages total t count) st' ∧ st'.pc t = .idle ∧
      st'.bitmap = (pmmAllocPages st.bitmap total count).bitmap := by
  rw [PmmState.callPages, pmmAllocPages]
  by_cases hzero : count = 0
  · rw [if_pos (.inl hzero), if_pos hzero]
    exact ⟨st, Alone.refl _ _ _, hidle, rfl⟩
  by_cases hmany : total < count
  · rw [if_pos (.inr hmany), if_neg hzero, if_pos hmany]
    exact ⟨st, Alone.refl _ _ _, hidle, rfl⟩
  · rw [if_neg (by omega), if_neg hzero, if_neg hmany]
    have hpos : 1 ≤ count := by omega
    obtain ⟨st', hrun, hpc, hbitmap⟩ := alone_scan total t st hpos 0
    refine ⟨st', hrun, hpc, hbitmap.trans ?_⟩
    dsimp only
    cases (scan st.bitmap total count 0).found with
    | none => rfl
    | some a => rfl

theorem uninterrupted_alloc_pages_two :
    let st : PmmState := ⟨bitmapSet (fun _ => 0) 0, fun _ => .idle, fun _ => []⟩
    ∃ st', Alone 4 1 (st.callPages 4 1 2) st' ∧ st'.pc 1 = .idle ∧
      st'.bitmap = (pmmAllocPages st.bitmap 4 2).bitmap :=
  uninterrupted_alloc_pages 4 2 rfl

end DestinX.Pmm
