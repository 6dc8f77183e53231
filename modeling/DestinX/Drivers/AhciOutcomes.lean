import DestinX.Drivers.Ahci
import DestinX.Base.Runs

/-!
# Outcomes of disk commands

One thread at a time is in `ahci_read` and one in `ahci_write`. Both commands go to port 0, and
the device ends them in any order. A thread that was woken finds out from `read_port_is` or
`write_port_is` how its command ended.

The handler takes the failure of one command for a failure of both, and stores the status for
every slot whose bit in `ci` is clear, also when the thread has not yet read the one that was
there. So the last event before a thread goes on decides what it reports.
-/

namespace DestinX.Ahci

open Base Sched Function

/-- How the device ended a command. A command that succeeded is taken out of `ci`; for one that
failed this is left open. -/
structure Ending where
  (ok cleared : Bool)
  taken : ok = true → cleared = true
  deriving DecidableEq

/-- Where the thread behind the mutex of a slot is. -/
inductive Stage where
  | outside
  | building
  | waiting
  deriving DecidableEq, Repr

/-- `port->is = 0xFFFFFFFF`. -/
def Controller.clearStatus (a : Controller) : Controller :=
  { a with portIs := a.portIs &&& ~~~0xFFFFFFFF#32 }

/-- What the function of the slot returns. -/
def status (slot : Slot) (a : Controller) : Int :=
  if (a.slotPortIs slot).getLsbD 30 then -1 else 0

/-- The device ends the command in a slot. -/
def Controller.finish (a : Controller) (slot : Slot) (e : Ending)
    (event : BitVec 32) : Controller :=
  { a with
    hbaIs := a.hbaIs ||| 1#32
    portIs := a.portIs ||| event
    ci := if e.cleared then a.ci &&& ~~~(1#32 <<< slot.index) else a.ci }

/-- Beside the code: how the command that was issued last in a slot ended, whether the device has
failed the other command since, how the latest event on the port was, and the last result of each
function with how its command had ended. -/
structure CommandState where
  sched : Scheduler
  ctl : Controller
  stage : Slot → Stage
  ended : Slot → Option Ending
  otherFailed : Slot → Bool
  lastOk : Bool
  results : Slot → Option (Option Ending × Int)

inductive CommandAction where
  | other
  | begin (slot : Slot)
  | issue (slot : Slot)
  | finish (slot : Slot) (e : Ending)
  | resume (slot : Slot)

inductive CommandStep : CommandState → CommandAction → CommandState → Prop
  | other {st : CommandState} {s' : Scheduler} : CommandStep st .other { st with sched := s' }
  | begin {st : CommandState} {slot : Slot} (hstage : st.stage slot = .outside) :
      CommandStep st (.begin slot)
        { st with
          ctl := st.ctl.clearStatus
          stage := update st.stage slot .building }
  | issue {st : CommandState} {slot : Slot} {s' : Scheduler} {a' : Controller}
      (hstage : st.stage slot = .building) (hblock : block slot st.sched st.ctl = some (s', a')) :
      CommandStep st (.issue slot)
        { st with
          sched := s'
          ctl := a'
          stage := update st.stage slot .waiting
          ended := update st.ended slot none
          otherFailed := update st.otherFailed slot false }
  | finish {st : CommandState} {slot : Slot} {e : Ending} {event : BitVec 32}
      (hstage : st.stage slot = .waiting) (hended : st.ended slot = none)
      (hevent : event.getLsbD 30 = !e.ok) :
      CommandStep st (.finish slot e)
        { st with
          sched := (ahciHandler st.sched (st.ctl.finish slot e event)).1
          ctl := (ahciHandler st.sched (st.ctl.finish slot e event)).2
          ended := update st.ended slot (some e)
          otherFailed := fun k => st.otherFailed k || (k != slot && !e.ok)
          lastOk := e.ok }
  | resume {st : CommandState} {slot : Slot} (hstage : st.stage slot = .waiting)
      (hwoken : st.ctl.blockedThread slot = none) :
      CommandStep st (.resume slot)
        { st with
          stage := update st.stage slot .outside
          results := update st.results slot (some (st.ended slot, status slot st.ctl)) }

/-- Nobody uses the disk. -/
structure CommandStart (st : CommandState) : Prop where
  outside : ∀ slot, st.stage slot = .outside
  quiet : st.ctl.portIs = 0
  nothing : ∀ slot, st.results slot = none

def commandMachine : Machine CommandState CommandAction where
  start := CommandStart
  step := CommandStep

/-- Every function returned after the end of its own command, with 0 exactly when this was a
success. -/
def ReportsOwn (st : CommandState) : Prop :=
  ∀ slot ended r, st.results slot = some (ended, r) → ∃ e, ended = some e ∧ (r = 0 ↔ e.ok = true)

/-- When a thread goes on after a failure of the other command, the device has ended its own as
well; and the latest event on the port was like the end of its own command, unless the device has
left that command in `ci`. -/
def LatestIsOwn (st : CommandState) : CommandAction → Prop
  | .resume slot => (st.otherFailed slot = true → st.ended slot ≠ none) ∧
      ∀ e, st.ended slot = some e → e.cleared = true → st.lastOk = e.ok
  | _ => True

variable {st st' : CommandState} {act : CommandAction} {s : Scheduler} {a a' : Controller}
  {slot k : Slot} {e : Ending} {event portIs : BitVec 32}

/-! ## The handler -/

lemma wakeSlot_slotPortIs : (wakeSlot slot portIs s a).2.slotPortIs k =
      if k = slot ∧ Finished a portIs slot then portIs else a.slotPortIs k := by
  unfold wakeSlot
  by_cases hf : Finished a portIs slot
  · rw [if_pos hf]
    by_cases hk : k = slot
    · subst hk
      rw [if_pos ⟨rfl, hf⟩]
      cases a.blockedThread k with
      | none => exact update_self k portIs a.slotPortIs
      | some t => exact update_self k portIs a.slotPortIs
    · rw [if_neg fun h => hk h.1]
      cases a.blockedThread slot with
      | none => exact update_of_ne hk portIs a.slotPortIs
      | some t => exact update_of_ne hk portIs a.slotPortIs
  · rw [if_neg hf, if_neg fun h => hf h.2]

lemma wakeSlot_blockedThread : (wakeSlot slot portIs s a).2.blockedThread k =
      if k = slot ∧ Finished a portIs slot then none else a.blockedThread k := by
  by_cases hk : k = slot
  · subst hk
    by_cases hf : Finished a portIs k
    · rw [if_pos ⟨rfl, hf⟩]
      cases hb : a.blockedThread k with
      | none =>
        rw [(wakeSlot_none fun h => by
          obtain ⟨t, ht⟩ := h.2
          rw [hb] at ht
          cases ht).2]
        exact hb
      | some t => rw [(wakeSlot_some hf hb).2, update_self]
    · rw [if_neg fun h => hf h.2, (wakeSlot_none fun h => hf h.1).2]
  · rw [if_neg fun h => hk h.1, (wakeSlot_frame slot portIs s a).2.2 k hk]

lemma wakeSlot_portIs : (wakeSlot slot portIs s a).2.portIs = a.portIs := by
  unfold wakeSlot
  split_ifs
  · cases a.blockedThread slot with
    | none => rfl
    | some t => rfl
  · rfl

/-- What `ahci_handler` does with an interrupt of port 0. -/
structure HandledEvent (a a' : Controller) : Prop where
  ci : a'.ci = a.ci
  portIs : a'.portIs = 0
  saved : ∀ k, a'.slotPortIs k = if Finished a a.portIs k then a.portIs else a.slotPortIs k
  woken : ∀ k, a'.blockedThread k = if Finished a a.portIs k then none else a.blockedThread k

/-- The tests of the two branches together, for something that both set in the same way. -/
lemma eachSlot_ite {α : Type*} {F G : Prop} [Decidable F] [Decidable G] (k : Slot) (x y : α)
    (P : Slot → Prop) [∀ k, Decidable (P k)] (hF : F ↔ P .read) (hG : G ↔ P .write) :
    (if k = .write ∧ G then x else if k = .read ∧ F then x else y) = if P k then x else y := by
  cases k with
  | read =>
    rw [if_neg fun h => Slot.noConfusion h.1]
    simp only [true_and, hF]
  | write =>
    rw [if_neg (c := _ ∧ F) fun h => Slot.noConfusion h.1]
    simp only [true_and, hG]

lemma ahciHandler_event (s : Scheduler) (h : a.hbaIs.getLsbD 0 = true) :
    HandledEvent a (ahciHandler s a).2 := by
  -- The first branch does not change what the second one tests.
  have hfin : ∀ k, Finished (wakeSlot .read a.portIs s a.acknowledge).2 a.portIs k ↔
      Finished a a.portIs k := by
    intro k
    rw [Finished, (wakeSlot_frame .read a.portIs s a.acknowledge).2.1]
    exact Iff.rfl
  have hread : Finished a.acknowledge a.portIs .read ↔ Finished a a.portIs .read := Iff.rfl
  simp only [ahciHandler, h, if_true]
  constructor
  · exact ((wakeSlot_frame _ _ _ _).2.1).trans (wakeSlot_frame _ _ _ _).2.1
  · rw [wakeSlot_portIs, wakeSlot_portIs]
    exact BitVec.and_not_self a.portIs
  · intro k
    rw [wakeSlot_slotPortIs, wakeSlot_slotPortIs]
    exact eachSlot_ite k _ _ (Finished a a.portIs) hread (hfin .write)
  · intro k
    rw [wakeSlot_blockedThread, wakeSlot_blockedThread]
    exact eachSlot_ite k _ _ (Finished a a.portIs) hread (hfin .write)

lemma finish_event (slot : Slot) (e : Ending) (event : BitVec 32) (s : Scheduler)
    (a : Controller) : HandledEvent (a.finish slot e event)
      (ahciHandler s (a.finish slot e event)).2 := by
  apply ahciHandler_event
  simp [Controller.finish]

lemma finish_ci (a : Controller) (slot k : Slot) (e : Ending) (event : BitVec 32) :
    (a.finish slot e event).ci.getLsbD k.index = false ↔
      a.ci.getLsbD k.index = false ∨ (k = slot ∧ e.cleared = true) := by
  have hbit : (1#32 <<< slot.index).getLsbD k.index = decide (k = slot) := by
    cases slot <;> cases k <;> rfl
  have hlt : k.index < 32 := by cases k <;> decide
  simp only [Controller.finish]
  cases e.cleared with
  | true =>
    rw [if_pos rfl, BitVec.getLsbD_and, BitVec.getLsbD_not, hbit]
    cases a.ci.getLsbD k.index <;> simp [hlt]
  | false => simp

/-! ## The saved status of a command -/

/-- For a thread that waits or was woken: `ci` shows whether its command was taken out, and the
saved status shows the latest event on the port, or the failure of a command that was left in
`ci`. -/
structure SlotKept (st : CommandState) (k : Slot) : Prop where
  ci : st.ctl.ci.getLsbD k.index = false ↔ ∃ e, st.ended k = some e ∧ e.cleared = true
  saved : ∀ e, st.ended k = some e →
    (st.ctl.slotPortIs k).getLsbD 30 = !(if e.cleared then st.lastOk else false)
  woken : st.ctl.blockedThread k = none → st.ended k = none → st.otherFailed k = true

structure CommandInv (st : CommandState) : Prop where
  quiet : st.ctl.portIs = 0
  waiting : ∀ k, st.stage k = .waiting → SlotKept st k
  reports : ReportsOwn st

lemma SlotKept.congr (h : SlotKept st k) (hctl : st'.ctl.ci = st.ctl.ci ∧
      st'.ctl.slotPortIs = st.ctl.slotPortIs ∧ st'.ctl.blockedThread = st.ctl.blockedThread)
    (hended : st'.ended = st.ended) (hfailed : st'.otherFailed = st.otherFailed)
    (hlast : st'.lastOk = st.lastOk) : SlotKept st' k := by
  obtain ⟨hci, hsaved, hblocked⟩ := hctl
  constructor
  · rw [hci, hended]
    exact h.ci
  · rw [hsaved, hended, hlast]
    exact h.saved
  · rw [hblocked, hended, hfailed]
    exact h.woken

/-- What the thread reports is right exactly when the latest event was like its own. -/
lemma SlotKept.report (h : SlotKept st k) (hwoken : st.ctl.blockedThread k = none) :
    (∃ e, st.ended k = some e ∧ (status k st.ctl = 0 ↔ e.ok = true)) ↔
      LatestIsOwn st (.resume k) := by
  have hcond : LatestIsOwn st (.resume k) ↔
      ∃ e, st.ended k = some e ∧ (e.cleared = true → st.lastOk = e.ok) := by
    constructor
    · rintro ⟨hended, hlast⟩
      have hsome : st.ended k ≠ none := fun hnone => hended (h.woken hwoken hnone) hnone
      obtain ⟨e, he⟩ := Option.ne_none_iff_exists'.mp hsome
      exact ⟨e, he, hlast e he⟩
    · rintro ⟨e, he, hlast⟩
      refine ⟨fun _ hnone => ?_, fun e' he' => ?_⟩
      · cases he.symm.trans hnone
      · cases he.symm.trans he'
        exact hlast
  rw [hcond]
  refine exists_congr fun e => and_congr_right fun he => ?_
  have hstatus : status k st.ctl = 0 ↔ (st.ctl.slotPortIs k).getLsbD 30 = false := by
    rw [status]
    cases (st.ctl.slotPortIs k).getLsbD 30 with
    | true => decide
    | false => decide
  rw [hstatus, h.saved e he]
  cases hc : e.cleared with
  | true =>
    cases st.lastOk <;> cases e.ok <;> decide
  | false =>
    have hok : e.ok = false := by
      by_contra hok
      rw [e.taken (by simpa using hok)] at hc
      cases hc
    rw [hok]
    exact iff_of_true (iff_of_false Bool.noConfusion Bool.noConfusion) Bool.noConfusion

section Finish

variable (hinv : CommandInv st) (hstage : st.stage slot = .waiting) (hended : st.ended slot = none)
  (hevent : event.getLsbD 30 = !e.ok)

include hinv hevent

lemma CommandInv.finish_bit (slot : Slot) :
    (st.ctl.finish slot e event).portIs.getLsbD 30 = !e.ok := by
  rw [Controller.finish, hinv.quiet, BitVec.getLsbD_or, hevent]
  rfl

/-- Which slots the handler takes for finished. -/
lemma CommandInv.finished_iff (slot k : Slot) :
    Finished (st.ctl.finish slot e event) (st.ctl.finish slot e event).portIs k ↔
      e.ok = false ∨ st.ctl.ci.getLsbD k.index = false ∨ (k = slot ∧ e.cleared = true) := by
  rw [Finished, finish_ci, hinv.finish_bit hevent, Bool.not_eq_true']

include hstage hended

lemma CommandInv.finish_own (st' : CommandState)
    (hctl : HandledEvent (st.ctl.finish slot e event) st'.ctl) (hlast : st'.lastOk = e.ok)
    (hown : st'.ended slot = some e) : SlotKept st' slot := by
  have hbusy : ¬ st.ctl.ci.getLsbD slot.index = false := by
    rw [(hinv.waiting slot hstage).ci]
    rintro ⟨e', he', -⟩
    rw [hended] at he'
    cases he'
  constructor
  · rw [hctl.ci, finish_ci, hown]
    constructor
    · rintro (h | ⟨-, hc⟩)
      · exact absurd h hbusy
      · exact ⟨e, rfl, hc⟩
    · rintro ⟨e', he', hc⟩
      cases he'
      exact .inr ⟨rfl, hc⟩
  swap
  · intro _ hnone
    cases hown.symm.trans hnone
  · intro e' he'
    cases hown.symm.trans he'
    have hfin := (hinv.finished_iff hevent slot slot).mpr (by
      cases hok : e.ok with
      | false => exact .inl rfl
      | true => exact .inr (.inr ⟨rfl, e.taken hok⟩))
    rw [hctl.saved, if_pos hfin, hinv.finish_bit hevent, hlast]
    cases hc : e.cleared with
    | true => rfl
    | false =>
      cases hok : e.ok with
      | false => rfl
      | true =>
        rw [e.taken hok] at hc
        cases hc

omit hstage hended in
lemma CommandInv.finish_other (st' : CommandState) (hk : k ≠ slot) (hkept : SlotKept st k)
    (hctl : HandledEvent (st.ctl.finish slot e event) st'.ctl) (hlast : st'.lastOk = e.ok)
    (hother : st'.ended k = st.ended k)
    (hfailed : st'.otherFailed k = (st.otherFailed k || (k != slot && !e.ok))) :
    SlotKept st' k := by
  have hfin : Finished (st.ctl.finish slot e event) (st.ctl.finish slot e event).portIs k ↔
      e.ok = false ∨ st.ctl.ci.getLsbD k.index = false := by
    rw [hinv.finished_iff hevent slot k]
    refine or_congr Iff.rfl ⟨fun h => h.resolve_right fun h => hk h.1, Or.inl⟩
  constructor
  · rw [hctl.ci, finish_ci, hother, ← hkept.ci]
    exact ⟨fun h => h.resolve_right fun h => hk h.1, Or.inl⟩
  swap
  · intro hnone hended
    rw [hother] at hended
    rw [hfailed]
    by_cases hf : Finished (st.ctl.finish slot e event) (st.ctl.finish slot e event).portIs k
    · -- only a failure wakes a thread whose command is outstanding
      rcases hfin.mp hf with hok | hci
      · simp [hk, hok]
      · obtain ⟨e', he', -⟩ := hkept.ci.mp hci
        cases hended.symm.trans he'
    · rw [hctl.woken, if_neg hf] at hnone
      rw [hkept.woken hnone hended, Bool.true_or]
  · intro e' he'
    rw [hother] at he'
    have hci : st.ctl.ci.getLsbD k.index = false ↔ e'.cleared = true := by
      rw [hkept.ci]
      constructor
      · rintro ⟨e1, he1, hc⟩
        cases he1.symm.trans he'
        exact hc
      · exact fun hc => ⟨e', he', hc⟩
    have hold := hkept.saved e' he'
    rw [hctl.saved, hlast]
    by_cases hf : Finished (st.ctl.finish slot e event) (st.ctl.finish slot e event).portIs k
    · rw [if_pos hf, hinv.finish_bit hevent]
      rw [hfin, hci] at hf
      obtain hok | hc := hf
      · rw [hok]
        cases e'.cleared <;> rfl
      · rw [hc]
        rfl
    · rw [if_neg hf]
      rw [hfin, hci] at hf
      have hc : e'.cleared = false := by simpa using fun h => hf (.inr h)
      rw [hc] at hold ⊢
      exact hold

end Finish

/-! ## All runs -/

lemma CommandInv.step_kept (hinv : CommandInv st) (hstep : commandMachine.step st act st') :
    st'.ctl.portIs = 0 ∧ ∀ k, st'.stage k = .waiting → SlotKept st' k := by
  cases hstep with
  | other => exact ⟨hinv.quiet, fun k hk => (hinv.waiting k hk).congr ⟨rfl, rfl, rfl⟩ rfl rfl rfl⟩
  | @begin slot hstage =>
    refine ⟨?_, fun k hk => ?_⟩
    · show st.ctl.portIs &&& ~~~0xFFFFFFFF#32 = 0
      rw [hinv.quiet]
      rfl
    · have hne : k ≠ slot := by
        rintro rfl
        simp only [update_self] at hk
        cases hk
      simp only [update_of_ne hne] at hk
      exact (hinv.waiting k hk).congr ⟨rfl, rfl, rfl⟩ rfl rfl rfl
  | @issue slot s' a' hstage hblock =>
    obtain ⟨t, -, hsome⟩ := Option.map_eq_some_iff.mp hblock
    obtain ⟨-, rfl⟩ := Prod.mk.inj hsome
    refine ⟨hinv.quiet, fun k hk => ?_⟩
    have hbit : (1#32 <<< slot.index).getLsbD k.index = decide (k = slot) := by
      cases slot <;> cases k <;> rfl
    by_cases hks : k = slot
    · subst hks
      constructor
      · simp [hbit]
      · intro e he
        simp only [update_self] at he
        cases he
      · intro hnone
        simp only [update_self] at hnone
        cases hnone
    · simp only [update_of_ne hks] at hk
      constructor
      · simp only [BitVec.getLsbD_or, hbit, decide_eq_false hks, Bool.or_false, update_of_ne hks]
        exact (hinv.waiting k hk).ci
      · simp only [update_of_ne hks]
        exact (hinv.waiting k hk).saved
      · simp only [update_of_ne hks]
        exact (hinv.waiting k hk).woken
  | @finish slot e event hstage hended hevent =>
    have hctl := finish_event slot e event st.sched st.ctl
    refine ⟨hctl.portIs, fun k hk => ?_⟩
    by_cases hks : k = slot
    · subst hks
      exact hinv.finish_own hstage hended hevent _ hctl rfl (update_self _ _ _)
    · exact hinv.finish_other hevent _ hks (hinv.waiting k hk) hctl rfl (update_of_ne hks _ _)
        rfl
  | @resume slot hstage hwoken =>
    refine ⟨hinv.quiet, fun k hk => ?_⟩
    have hne : k ≠ slot := by
      rintro rfl
      simp only [update_self] at hk
      cases hk
    simp only [update_of_ne hne] at hk
    exact (hinv.waiting k hk).congr ⟨rfl, rfl, rfl⟩ rfl rfl rfl

/-- The results are right after a step exactly when the step meets the condition. -/
lemma CommandInv.reports_iff (hinv : CommandInv st) (hstep : commandMachine.step st act st') :
    ReportsOwn st' ↔ LatestIsOwn st act := by
  cases hstep with
  | other => exact iff_of_true hinv.reports trivial
  | begin hstage => exact iff_of_true hinv.reports trivial
  | issue hstage hblock => exact iff_of_true hinv.reports trivial
  | finish hstage hended hevent => exact iff_of_true hinv.reports trivial
  | @resume slot hstage hwoken =>
    rw [← (hinv.waiting slot hstage).report hwoken]
    constructor
    · intro h
      exact h slot _ _ (update_self _ _ _)
    · intro h k ended r hr
      rcases update_eq_cases hr with ⟨rfl, hr⟩ | ⟨hk, hr⟩
      · cases hr
        exact h
      · exact hinv.reports k ended r hr

lemma CommandInv.step (hinv : CommandInv st) (hgood : LatestIsOwn st act)
    (hstep : commandMachine.step st act st') : CommandInv st' where
  quiet := (hinv.step_kept hstep).1
  waiting := (hinv.step_kept hstep).2
  reports := (hinv.reports_iff hstep).mpr hgood

lemma commandInv_start (h : commandMachine.start st) : CommandInv st where
  quiet := h.quiet
  waiting := fun k hk => by
    rw [h.outside k] at hk
    cases hk
  reports := fun k ended r hr => by
    rw [h.nothing k] at hr
    cases hr

def Ending.success : Ending := ⟨true, true, fun _ => rfl⟩

def Ending.failure : Ending := ⟨false, true, fun _ => rfl⟩

/-- Thread 0 runs and nobody uses the disk. -/
def quietDisk : CommandState where
  sched := { blankScheduler zeroThread with currentThread := some 0 }
  ctl := ⟨fun _ => none, fun _ => 0, 0, 0, 0⟩
  stage := fun _ => .outside
  ended := fun _ => none
  otherFailed := fun _ => false
  lastOk := true
  results := fun _ => none

lemma quietDisk_start : commandMachine.start quietDisk :=
  ⟨fun _ => rfl, rfl, fun _ => rfl⟩

/-- Thread 0 has issued a read and thread 1 a write. -/
def bothIssued : CommandState where
  sched := quietDisk.sched
  ctl := ⟨fun slot => some slot.index, fun _ => 0, 0, 0, 3⟩
  stage := fun _ => .waiting
  ended := fun _ => none
  otherFailed := fun _ => false
  lastOk := true
  results := fun _ => none

lemma bothIssued_reached {good : CommandState → CommandAction → Prop}
    (hgood : ∀ st act, (∀ slot, act ≠ .resume slot) → good st act) :
    commandMachine.Reached good bothIssued := by
  have h0 : commandMachine.Reached good quietDisk := .start quietDisk_start
  have h1 := h0.step (hgood _ _ fun _ => CommandAction.noConfusion)
    (@CommandStep.begin _ .read rfl)
  have h2 := h1.step (hgood _ _ fun _ => CommandAction.noConfusion)
    (@CommandStep.issue _ .read _ _ rfl rfl)
  have h3 := h2.step (hgood _ _ fun _ => CommandAction.noConfusion)
    (@CommandStep.other _ { blankScheduler zeroThread with currentThread := some 1 })
  have h4 := h3.step (hgood _ _ fun _ => CommandAction.noConfusion)
    (@CommandStep.begin _ .write rfl)
  have h5 := h4.step (hgood _ _ fun _ => CommandAction.noConfusion)
    (@CommandStep.issue _ .write _ _ rfl rfl)
  have h6 := h5.step (hgood _ _ fun _ => CommandAction.noConfusion)
    (@CommandStep.other _ quietDisk.sched)
  convert h6 using 1
  simp only [bothIssued, CommandState.mk.injEq, true_and]
  refine ⟨?_, ?_, ?_, ?_, rfl, rfl⟩
  · simp only [Controller.mk.injEq]
    refine ⟨?_, rfl, rfl, rfl, rfl⟩
    ext1 slot
    cases slot <;> rfl
  all_goals
    ext1 slot
    cases slot <;> rfl

end DestinX.Ahci
