import DestinX.Sched.RingInvariant

/-!
# Disk commands and their interrupt

The part of `drivers/storage/ahci.c` in which a thread waits for the disk: it records itself,
marks itself blocked and issues the command, with interrupts off; then it calls `yield`.
`ahci_handler` makes the recorded thread ready when its command is done.

`ahci_read` and `ahci_write` differ in the command slot and the fields they use, so the slot is
a parameter. A write to `is` clears the bits that are set in the value, a write to `ci` sets
them.
-/

namespace DestinX.Ahci

open Base Sched Function

/-- `ahci_read` uses command slot 0 and `ahci_write` slot 1. -/
inductive Slot where
  | read
  | write
  deriving DecidableEq, Repr

def Slot.index : Slot → Nat
  | .read => 0
  | .write => 1

/-- What interrupts concern of the controller: the fields of `main_ahci` for the two slots
(`read_blcoked_thread` and `write_blocked_thread`, `read_port_is` and `write_port_is`), the
register `is` of the controller, and the registers `is` and `ci` of port 0. -/
structure Controller where
  blockedThread : Slot → Option Nat
  slotPortIs : Slot → BitVec 32
  (hbaIs portIs ci : BitVec 32)

/-- The section with interrupts off, before `yield`. -/
def block (slot : Slot) (s : Scheduler) (a : Controller) : Option (Scheduler × Controller) :=
  s.currentThread.map fun t =>
    (s.modify t (Thread.setState .blocked), { a with
        blockedThread := update a.blockedThread slot (some t)
        ci := a.ci ||| 1#32 <<< slot.index })

def ahciReadBlock : Scheduler → Controller → Option (Scheduler × Controller) := block .read

def ahciWriteBlock : Scheduler → Controller → Option (Scheduler × Controller) := block .write

/-- The command failed, or the device is done with the slot. -/
def Finished (a : Controller) (portIs : BitVec 32) (slot : Slot) : Prop :=
  portIs.getLsbD 30 = true ∨ a.ci.getLsbD slot.index = false

instance (a : Controller) (portIs : BitVec 32) (slot : Slot) : Decidable (Finished a portIs slot) :=
  inferInstanceAs (Decidable (_ ∨ _))

/-- The branch of `ahci_handler` for one slot. -/
def wakeSlot (slot : Slot) (portIs : BitVec 32) (s : Scheduler) (a : Controller) :
    Scheduler × Controller :=
  if Finished a portIs slot then
    let a₁ := { a with slotPortIs := update a.slotPortIs slot portIs }
    match a.blockedThread slot with
    | none => (s, a₁)
    | some t =>
      (enqueueThread (s.modify t (Thread.setState .ready)) t,
        { a₁ with blockedThread := update a.blockedThread slot none })
  else (s, a)

/-- The write of the port's `is` back to itself. -/
def Controller.acknowledge (a : Controller) : Controller :=
  { a with portIs := a.portIs &&& ~~~a.portIs }

/-- `ahci_handler`. It runs with interrupts off. -/
def ahciHandler (s : Scheduler) (a : Controller) : Scheduler × Controller :=
  let hbaIs := a.hbaIs
  let p :=
    if hbaIs.getLsbD 0 then
      let portIs := a.portIs
      let p₁ := wakeSlot .read portIs s a.acknowledge
      wakeSlot .write portIs p₁.1 p₁.2
    else (s, a)
  (p.1, { p.2 with hbaIs := p.2.hbaIs &&& ~~~hbaIs })

/-- The interrupt would put thread `t` into the ring for the command in `slot`. -/
def Controller.Wakes (a : Controller) (slot : Slot) (t : Nat) : Prop :=
  a.hbaIs.getLsbD 0 = true ∧ Finished a a.portIs slot ∧ a.blockedThread slot = some t

variable {s : Scheduler} {a : Controller} {portIs : BitVec 32} {slot slot' : Slot} {t : Nat}

lemma wakeSlot_frame (slot : Slot) (portIs : BitVec 32) (s : Scheduler) (a : Controller) :
    (wakeSlot slot portIs s a).1.globals = s.globals ∧ (wakeSlot slot portIs s a).2.ci = a.ci ∧
      ∀ slot', slot' ≠ slot →
        (wakeSlot slot portIs s a).2.blockedThread slot' = a.blockedThread slot' := by
  unfold wakeSlot
  split_ifs
  · cases a.blockedThread slot with
    | none => exact ⟨rfl, rfl, fun _ _ => rfl⟩
    | some t => exact ⟨enqueueThread_globals, rfl, fun _ hne => update_of_ne hne _ _⟩
  · exact ⟨rfl, rfl, fun _ _ => rfl⟩

/-- The branch of the slot does nothing to threads unless one is recorded and the
command is finished. -/
lemma wakeSlot_none (h : ¬ (Finished a portIs slot ∧ ∃ t, a.blockedThread slot = some t)) :
    (wakeSlot slot portIs s a).1 = s ∧
      (wakeSlot slot portIs s a).2.blockedThread = a.blockedThread := by
  unfold wakeSlot
  split_ifs with hf
  · cases hb : a.blockedThread slot with
    | none => exact ⟨rfl, rfl⟩
    | some t => exact absurd ⟨hf, t, hb⟩ h
  · exact ⟨rfl, rfl⟩

lemma wakeSlot_some (hf : Finished a portIs slot) (hb : a.blockedThread slot = some t) :
    (wakeSlot slot portIs s a).1 = enqueueThread (s.modify t (Thread.setState .ready)) t ∧
      (wakeSlot slot portIs s a).2.blockedThread = update a.blockedThread slot none := by
  unfold wakeSlot
  rw [if_pos hf, hb]
  exact ⟨rfl, rfl⟩

end DestinX.Ahci
